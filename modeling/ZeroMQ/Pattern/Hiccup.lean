import ZeroMQ.Engine.Greeting
import ZeroMQ.Pattern.Attached
import ZeroMQ.Pipe.Epochs

/-!
# Hiccups between sessions and their socket

A session that has lost its connection tells the socket by a hiccup of its pipe: a session of a subscriber does, and
one that was made with `ZMQ_IMMEDIATE` does and then gives the pipe up. The session looks at its own copy of the
options, which was made when the socket connected. The socket looks at its options as they are when the hiccup
arrives: with `ZMQ_IMMEDIATE` it terminates the pipe, and otherwise it calls `xhiccuped`, which only `xsub_t` and the
classes derived from it have.

The two agree as long as no socket of another type handles the hiccup of a session made with `ZMQ_IMMEDIATE` at a time
when the option is off.
-/

namespace Zmq

open Foundation Function Nat

open Link

/-- The class of the socket has a `xhiccuped` of its own: `sub_t` is derived from `xsub_t`, and no other class has
one. -/
def SocketType.overridesXhiccuped : SocketType → Bool
  | .sub | .xsub => true
  | .pair | .pub | .req | .rep | .dealer | .router | .pull | .push | .xpub | .stream => false

/-- A session that connects, as far as hiccups go. -/
structure ConnectSession where
  /-- Its copy of `options.immediate == 1`. -/
  immediate : Bool
  /-- The transport is `pgm`, `epgm` or `norm`. -/
  multicast : Bool
  /-- The pipe to the socket. -/
  pipe : Option ℕ
  deriving DecidableEq, Repr

/-- A socket with its pipes and the sessions it has made by `connect`. -/
structure HiccupSocket where
  /-- The pipes, seen from the socket. -/
  links : Pipes
  /-- The number of the next pipe. -/
  count : ℕ
  /-- The session that has the other end of a pipe, if it is one of these. -/
  owner : ℕ → Option ℕ
  session : ℕ → ConnectSession
  /-- The number of the next session. -/
  sessions : ℕ
  /-- `options.immediate == 1`. -/
  immediate : Bool

/-- What can go wrong. -/
inductive HiccupFault
  | pipe (fault : PipeFault)
  /-- `zmq_assert (false)` in `socket_base_t::xhiccuped`. -/
  | xhiccuped
  deriving DecidableEq, Repr

/-- What can happen to a socket and its sessions. -/
inductive HiccupAct
  | setImmediate (b : Bool)
  | connect (multicast : Bool) (hwm₀ hwm₁ : ℤ)
  /-- A pipe arrives from another socket or from the session of a listener. -/
  | processBind (hwm₀ hwm₁ : ℤ)
  /-- The connection of a session is made. -/
  | processAttach (session : ℕ) (hwm₀ hwm₁ : ℤ)
  /-- The connection of a session is lost. -/
  | reconnect (session : ℕ)
  /-- The socket does something with a pipe, or a command arrives. -/
  | socket (pipe : ℕ) (act : { a : EndAct // a ≠ .hiccup })
  /-- The other end of a pipe does something else than to reconnect. -/
  | peer (pipe : ℕ) (act : { a : EndAct // a ≠ .hiccup })

/-! ### Hiccups of a pipe -/

namespace Link

variable {s t : Link} {a : EndAct} {e : Option SinkEvent}

lemma mem_of_hiccupNext {x : Endpoint} (h : hiccupNext x = true) : ∃ j, Command.hiccup j ∈ x.inbox := by
  unfold hiccupNext at h
  split at h
  next j cs hin =>
    rw [hin]
    exact ⟨j, List.mem_cons_self⟩
  next => cases h

lemma Move.of_active_hiccuped (hmove : s.Move a t e) (he : e = some .hiccuped) :
    a = .deliver ∧ hiccupNext s.near = true ∧ s.near.pipe.state = .active := by
  obtain ⟨rfl, hnext⟩ := hmove.of_hiccuped he
  refine ⟨rfl, hnext, ?_⟩
  by_contra hst
  cases hmove with
  | plug cs i j hin hi =>
    rw [if_neg hst] at he
    cases he
  | activateRead | activateWrite => split at he <;> simp at he
  | _ => cases he

end Link

lemma ShutdownInv.act_of_hiccupNext {s : Link} (h : ShutdownInv s) (hnext : hiccupNext s.near = true)
    (hst : s.near.pipe.state = .active) : ∃ t, s.act .deliver = .ok (t, some .hiccuped) := by
  unfold hiccupNext at hnext
  split at hnext
  next j cs hin =>
    have halive : s.near.frees = 0 := by
      by_contra hdead
      rw [(h.near.dead hdead).2.2.1] at hin
      cases hin
    obtain ⟨t, e, hact, hmove⟩ := h.deliver_succeeds halive hin
    cases hmove with
    | plug =>
      rw [if_pos hst] at hact
      exact ⟨_, hact⟩
    | activateRead cs' hin' | activateWrite cs' n hin' | pipeTermWait cs' hin' | pipeTermAck cs' hin'
    | pipeTermCross cs' hin' | ackAnswer cs' hin' | ackLast cs' hin' => exact absurd (hin.symm.trans hin') (by simp)
    | readEmpty _ ha | readDelimiter _ _ _ _ ha | readLastDelimiter _ _ _ _ ha | fill ha => exact absurd ha (by simp)
  next => cases hnext

namespace HiccupSocket

/-- A pipe after something was done with it. -/
def setLink (s : HiccupSocket) (p : ℕ) (l : Link) : HiccupSocket := { s with links := update s.links p l }

/-- A session has another pipe. -/
def setPipe (s : HiccupSocket) (c : ℕ) (pipe : Option ℕ) : HiccupSocket :=
  { s with session := update s.session c { s.session c with pipe := pipe } }

/-- A new pair of pipes. -/
def newPair (s : HiccupSocket) (l : Link) (owner : Option ℕ) : HiccupSocket :=
  { s with
    links := update s.links s.count l
    count := s.count + 1
    owner := update s.owner s.count owner }

/-- The part of `connect` that makes a session and, unless it is to be made with the connection, the pipe. -/
def connect (s : HiccupSocket) (multicast : Bool) (hwm₀ hwm₁ : ℤ) : HiccupSocket :=
  let c := s.sessions
  let s := { s with
    session := update s.session c ⟨s.immediate, multicast, none⟩
    sessions := s.sessions + 1 }
  if !s.immediate || multicast then (s.newPair (Link.pipepair hwm₀ hwm₁) (some c)).setPipe c (some s.count) else s

/-- `session_base_t::process_attach`: the session makes the pipe if there is none. -/
def processAttach (s : HiccupSocket) (c : ℕ) (hwm₀ hwm₁ : ℤ) : HiccupSocket :=
  match (s.session c).pipe with
  | none => (s.newPair (Link.pipepair hwm₀ hwm₁).swap (some c)).setPipe c (some s.count)
  | some _ => s

/-- The socket calls an operation of its end of a pipe, or gets a command. -/
def onSocket (s : HiccupSocket) (p : ℕ) (a : EndAct) : Except HiccupFault (HiccupSocket × Option SinkEvent) :=
  match (s.links p).act a with
  | .ok (l, e) => .ok (s.setLink p l, e)
  | .error f => .error (.pipe f)

/-- The same for the other end. -/
def onPeer (s : HiccupSocket) (p : ℕ) (a : EndAct) : Except HiccupFault (HiccupSocket × Option SinkEvent) :=
  match (s.links p).swap.act a with
  | .ok (l, e) => .ok (s.setLink p l.swap, e)
  | .error f => .error (.pipe f)

/-- `session_base_t::reconnect`, as far as the pipe goes. -/
def reconnect (type : SocketType) (s : HiccupSocket) (c : ℕ) : Except HiccupFault HiccupSocket :=
  match (s.session c).pipe with
  | none => .ok s
  | some p =>
    if (s.session c).immediate && !(s.session c).multicast then
      match s.onPeer p .hiccup with
      | .error f => .error f
      | .ok (s, _) =>
        match s.onPeer p (.terminate false) with
        | .error f => .error f
        | .ok (s, _) => .ok (s.setPipe c none)
    else if type = .sub ∨ type = .xsub then
      match s.onPeer p .hiccup with
      | .error f => .error f
      | .ok (s, _) => .ok s
    else .ok s

/-- What the socket does about an event of a pipe, as far as hiccups go; the first case is
`socket_base_t::hiccuped`. -/
def react (type : SocketType) (s : HiccupSocket) (p : ℕ) : Option SinkEvent → Except HiccupFault HiccupSocket
  | some .hiccuped =>
    if s.immediate then
      match s.onSocket p (.terminate false) with
      | .error f => .error f
      | .ok (s, _) => .ok s
    -- what a subscriber writes to the pipe is up to further acts
    else if type.overridesXhiccuped then .ok s
    else .error .xhiccuped
  | _ => .ok s

/-- What the other end does about an event of its pipe: a session forgets a pipe that is gone. -/
def peerReact (s : HiccupSocket) (p : ℕ) : Option SinkEvent → HiccupSocket
  | some .pipeTerminated =>
    match s.owner p with
    | none => s
    | some c => if (s.session c).pipe = some p then s.setPipe c none else s
  | _ => s

/-- One act. Acts on pipes and sessions that do not exist do nothing. -/
def step (type : SocketType) (s : HiccupSocket) : HiccupAct → Except HiccupFault HiccupSocket
  | .setImmediate b => .ok { s with immediate := b }
  | .connect multicast hwm₀ hwm₁ => .ok (s.connect multicast hwm₀ hwm₁)
  | .processBind hwm₀ hwm₁ => .ok (s.newPair (Link.pipepair hwm₀ hwm₁) none)
  | .processAttach c hwm₀ hwm₁ => .ok (if c < s.sessions then s.processAttach c hwm₀ hwm₁ else s)
  | .reconnect c => if c < s.sessions then s.reconnect type c else .ok s
  | .socket p a =>
    if p < s.count then
      match s.onSocket p a.1 with
      | .error f => .error f
      | .ok (s, e) => s.react type p e
    else .ok s
  | .peer p a =>
    if p < s.count then
      match s.onPeer p a.1 with
      | .error f => .error f
      | .ok (s, e) => .ok (s.peerReact p e)
    else .ok s

/-- A new socket. -/
def new : HiccupSocket :=
  { links := fun _ => Link.pipepair 0 0, count := 0, owner := fun _ => none,
    session := fun _ => ⟨false, false, none⟩, sessions := 0, immediate := false }

/-- A sequence of acts on a new socket. -/
def run (type : SocketType) (acts : List HiccupAct) : Except HiccupFault HiccupSocket :=
  runSteps (step type) new acts

lemma setPipe_immediate (s : HiccupSocket) (c : ℕ) (pipe : Option ℕ) (c' : ℕ) :
    ((s.setPipe c pipe).session c').immediate = (s.session c').immediate := by
  change (update s.session c _ c').immediate = _
  by_cases hc : c' = c
  · subst hc
    rw [update_self]
  · rw [update_of_ne hc]

/-! ### Agreement -/

/-- The copy of the options that the session of a pipe has says `ZMQ_IMMEDIATE`. -/
def MadeImmediate (s : HiccupSocket) (p : ℕ) : Prop := ∃ c ∈ s.owner p, (s.session c).immediate = true

/-- The copies agree where it matters: when a socket that is not a subscriber handles a hiccup from a session made with
`ZMQ_IMMEDIATE`, its own option is on. -/
def Agrees (type : SocketType) (s : HiccupSocket) : HiccupAct → Prop
  | .socket p a => a.1 = .deliver → p < s.count → hiccupNext (s.links p).near = true →
      (s.links p).near.pipe.state = .active → s.MadeImmediate p →
      type.overridesXhiccuped = true ∨ s.immediate = true
  | _ => True

/-- What holds of a socket and its sessions in every state: on a socket that is not a subscriber hiccups come from
sessions made with `ZMQ_IMMEDIATE`. -/
structure Inv (type : SocketType) (s : HiccupSocket) : Prop where
  shutdown : ∀ p < s.count, ShutdownInv (s.links p)
  owner : ∀ p < s.count, ∀ c ∈ s.owner p, c < s.sessions
  pipe : ∀ c < s.sessions, ∀ p ∈ (s.session c).pipe, p < s.count ∧ s.owner p = some c
  source : type.overridesXhiccuped = false → ∀ p < s.count, ∀ j, Command.hiccup j ∈ (s.links p).near.inbox →
    s.MadeImmediate p

namespace Inv

variable {type : SocketType} {s t : HiccupSocket} {p c : ℕ} {l : Link} {a : EndAct} {e : Option SinkEvent}

lemma new (type : SocketType) : Inv type HiccupSocket.new where
  shutdown p hp := absurd hp (not_lt_zero p)
  owner p hp := absurd hp (not_lt_zero p)
  pipe c hc := absurd hc (not_lt_zero c)
  source _ p hp := absurd hp (not_lt_zero p)

lemma setLink (h : Inv type s) (hl : p < s.count → ShutdownInv l)
    (hsource : type.overridesXhiccuped = false → p < s.count → ∀ j, Command.hiccup j ∈ l.near.inbox →
      s.MadeImmediate p) : Inv type (s.setLink p l) where
  shutdown q hq := by
    change ShutdownInv (update s.links p l q)
    by_cases hqp : q = p
    · subst hqp
      rw [update_self]
      exact hl hq
    · rw [update_of_ne hqp]
      exact h.shutdown q hq
  owner := h.owner
  pipe := h.pipe
  source htype q hq j hj := by
    change Command.hiccup j ∈ (update s.links p l q).near.inbox at hj
    by_cases hqp : q = p
    · subst hqp
      rw [update_self] at hj
      exact hsource htype hq j hj
    · rw [update_of_ne hqp] at hj
      exact h.source htype q hq j hj

/-! ### Sessions -/

lemma setPipe (h : Inv type s) {pipe : Option ℕ} (hpipe : ∀ p ∈ pipe, p < s.count ∧ s.owner p = some c) :
    Inv type (s.setPipe c pipe) where
  shutdown := h.shutdown
  owner := h.owner
  pipe c' hc' p hp := by
    change p ∈ (update s.session c _ c').pipe at hp
    by_cases hc : c' = c
    · subst hc
      rw [update_self] at hp
      exact hpipe p hp
    · rw [update_of_ne hc] at hp
      exact h.pipe c' hc' p hp
  source htype p hp j hj := by
    obtain ⟨c', hc', himm⟩ := h.source htype p hp j hj
    exact ⟨c', hc', (setPipe_immediate s c pipe c').trans himm⟩

lemma newPair (h : Inv type s) {owner : Option ℕ} (hl : ShutdownInv l) (hinbox : l.near.inbox = [])
    (howner : ∀ c ∈ owner, c < s.sessions) : Inv type (s.newPair l owner) where
  shutdown q hq := by
    change ShutdownInv (update s.links s.count l q)
    by_cases hqp : q = s.count
    · rw [hqp, update_self]
      exact hl
    · rw [update_of_ne hqp]
      exact h.shutdown q (lt_of_le_of_ne (Nat.le_of_lt_succ hq) hqp)
  owner q hq c hc := by
    change c ∈ update s.owner s.count owner q at hc
    by_cases hqp : q = s.count
    · rw [hqp, update_self] at hc
      exact howner c hc
    · rw [update_of_ne hqp] at hc
      exact h.owner q (lt_of_le_of_ne (Nat.le_of_lt_succ hq) hqp) c hc
  pipe c hc p hp := by
    obtain ⟨hlt, heq⟩ := h.pipe c hc p hp
    refine ⟨Nat.lt_succ_of_lt hlt, ?_⟩
    change update s.owner s.count owner p = some c
    rw [update_of_ne (Nat.ne_of_lt hlt)]
    exact heq
  source htype q hq j hj := by
    change Command.hiccup j ∈ (update s.links s.count l q).near.inbox at hj
    by_cases hqp : q = s.count
    · rw [hqp, update_self, hinbox] at hj
      exact absurd hj List.not_mem_nil
    rw [update_of_ne hqp] at hj
    obtain ⟨c, hc, himm⟩ := h.source htype q (lt_of_le_of_ne (Nat.le_of_lt_succ hq) hqp) j hj
    refine ⟨c, ?_, himm⟩
    change c ∈ update s.owner s.count owner q
    rw [update_of_ne hqp]
    exact hc

lemma addSession (h : Inv type s) (t : ConnectSession) (ht : t.pipe = none) :
    Inv type { s with session := update s.session s.sessions t, sessions := s.sessions + 1 } where
  shutdown := h.shutdown
  owner p hp c hc := Nat.lt_succ_of_lt (h.owner p hp c hc)
  pipe c hc p hp := by
    change p ∈ (update s.session s.sessions t c).pipe at hp
    by_cases heq : c = s.sessions
    · rw [heq, update_self, ht] at hp
      cases hp
    · rw [update_of_ne heq] at hp
      exact h.pipe c (lt_of_le_of_ne (Nat.le_of_lt_succ hc) heq) p hp
  source htype p hp j hj := by
    obtain ⟨c, hc, himm⟩ := h.source htype p hp j hj
    refine ⟨c, hc, ?_⟩
    change (update s.session s.sessions t c).immediate = true
    rw [update_of_ne (Nat.ne_of_lt (h.owner p hp c hc))]
    exact himm

lemma newPipe (h : Inv type s) (hc : c < s.sessions) (hl : ShutdownInv l) (hinbox : l.near.inbox = []) :
    Inv type ((s.newPair l (some c)).setPipe c (some s.count)) := by
  have hpair : Inv type (s.newPair l (some c)) := by
    refine h.newPair hl hinbox fun c' hc' => ?_
    rw [← Option.some.inj hc']
    exact hc
  refine hpair.setPipe fun p hp => ?_
  rw [← Option.some.inj hp]
  exact ⟨lt_succ_self _, update_self _ _ _⟩

lemma connect (h : Inv type s) (multicast : Bool) (hwm0 hwm1 : ℤ) : Inv type (s.connect multicast hwm0 hwm1) := by
  have hsession := h.addSession ⟨s.immediate, multicast, none⟩ rfl
  unfold HiccupSocket.connect
  dsimp only
  split
  · exact hsession.newPipe (lt_succ_self _) (.pipepair hwm0 hwm1) rfl
  · exact hsession

lemma processAttach (h : Inv type s) (hc : c < s.sessions) (hwm0 hwm1 : ℤ) :
    Inv type (s.processAttach c hwm0 hwm1) := by
  unfold HiccupSocket.processAttach
  split
  · exact h.newPipe hc (ShutdownInv.pipepair hwm0 hwm1).swap rfl
  · exact h

lemma onSocket (h : Inv type s) (hp : p < s.count) (a : EndAct) :
    ∃ l e, s.onSocket p a = .ok (s.setLink p l, e) ∧ Inv type (s.setLink p l) ∧
      ((l = s.links p ∧ e = none) ∨ (s.links p).Move a l e) := by
  obtain ⟨l, e, hact, hmove⟩ := (h.shutdown p hp).exists_move a
  refine ⟨l, e, by simp only [HiccupSocket.onSocket, hact], ?_, hmove.imp_right And.right⟩
  rcases hmove with ⟨rfl, -⟩ | ⟨halive, hmove⟩
  · exact h.setLink (h.shutdown p) fun htype hq j hj => h.source htype p hq j hj
  · refine h.setLink (fun _ => (h.shutdown p hp).move halive hmove) fun htype _ j hj => ?_
    exact h.source htype p hp j (hmove.inbox_subset _ hj)

lemma onPeer (h : Inv type s) (hp : p < s.count) (a : EndAct)
    (hmay : a = .hiccup → type.overridesXhiccuped = false → s.MadeImmediate p) :
    ∃ l e, s.onPeer p a = .ok (s.setLink p l, e) ∧ Inv type (s.setLink p l) := by
  obtain ⟨l, e, hact, hmove⟩ := (h.shutdown p hp).swap.exists_move a
  refine ⟨l.swap, e, by simp only [HiccupSocket.onPeer, hact], ?_⟩
  rcases hmove with ⟨rfl, -⟩ | ⟨halive, hmove⟩
  · exact h.setLink (h.shutdown p) fun htype hq j hj => h.source htype p hq j hj
  refine h.setLink (fun _ => ((h.shutdown p hp).swap.move halive hmove).swap) fun htype _ j hj => ?_
  by_cases hiccup : a = .hiccup
  · exact hmay hiccup htype
  · by_contra hnot
    exact hmove.hiccup_notMem hiccup (fun j' hj' => hnot (h.source htype p hp j' hj')) j hj

lemma reconnect (h : Inv type s) (hc : c < s.sessions) : ∃ t, s.reconnect type c = .ok t ∧ Inv type t := by
  unfold HiccupSocket.reconnect
  split
  next => exact ⟨s, rfl, h⟩
  next p hpipe =>
    obtain ⟨hp, howner⟩ := h.pipe c hc p hpipe
    split
    next himm =>
      have hmade : s.MadeImmediate p := ⟨c, howner, (Bool.and_eq_true _ _ ▸ himm).1⟩
      obtain ⟨l, e, hhiccup, hl⟩ := h.onPeer hp .hiccup fun _ _ => hmade
      obtain ⟨l', e', hterm, hl'⟩ := hl.onPeer hp (.terminate false) fun heq => (by cases heq)
      simp only [hhiccup, hterm]
      exact ⟨_, rfl, hl'.setPipe fun _ hnone => (by cases hnone)⟩
    split
    next hsub =>
      have hno : type.overridesXhiccuped ≠ false := by
        rcases hsub with rfl | rfl <;> decide
      obtain ⟨l, e, hhiccup, hl⟩ := h.onPeer hp .hiccup fun _ hfalse => absurd hfalse hno
      simp only [hhiccup]
      exact ⟨_, rfl, hl⟩
    next => exact ⟨s, rfl, h⟩

/-! ### Steps -/

lemma socket (h : Inv type s) (a : { a : EndAct // a ≠ .hiccup }) :
    (s.Agrees type (.socket p a) ∧ ∃ t, s.step type (.socket p a) = .ok t ∧ Inv type t) ∨
      (¬s.Agrees type (.socket p a) ∧ s.step type (.socket p a) = .error .xhiccuped) := by
  by_cases hp : p < s.count
  swap
  · exact .inl ⟨fun _ hlt => absurd hlt hp, s, if_neg hp, h⟩
  obtain ⟨l, e, hact, hl, hmove⟩ := h.onSocket hp a.1
  have hstep : s.step type (.socket p a) = (s.setLink p l).react type p e := by
    simp only [HiccupSocket.step, if_pos hp, hact]
  rw [hstep]
  by_cases he : e = some .hiccuped
  swap
  · -- no hiccup has arrived while the pipe was active
    refine .inl ⟨fun hdeliver _ hnext hst _ => ?_, s.setLink p l, ?_, hl⟩
    · obtain ⟨l', hact'⟩ := (h.shutdown p hp).act_of_hiccupNext hnext hst
      simp only [HiccupSocket.onSocket, hdeliver, hact'] at hact
      exact absurd (Prod.mk.inj (Except.ok.inj hact)).2.symm he
    · unfold react
      split
      · exact absurd rfl he
      · rfl
  obtain ⟨hdeliver, hnext, hst⟩ : a.1 = .deliver ∧ hiccupNext (s.links p).near = true ∧
      (s.links p).near.pipe.state = .active := by
    rcases hmove with ⟨-, hnone⟩ | hmove
    · exact absurd (he.symm.trans hnone) (by simp)
    · exact hmove.of_active_hiccuped he
  subst he
  by_cases himm : s.immediate = true
  · obtain ⟨l', e', hterm, hl', -⟩ := hl.onSocket hp (.terminate false)
    refine .inl ⟨fun _ _ _ _ _ => .inr himm, _, ?_, hl'⟩
    have himm' : (s.setLink p l).immediate = true := himm
    simp only [react, himm', if_true, hterm]
  have himm' : (s.setLink p l).immediate = false := eq_false_of_ne_true himm
  by_cases htype : type.overridesXhiccuped = true
  · refine .inl ⟨fun _ _ _ _ _ => .inl htype, s.setLink p l, ?_, hl⟩
    simp only [react, himm', htype, Bool.false_eq_true, if_false, if_true]
  have hmade : s.MadeImmediate p := by
    obtain ⟨j, hj⟩ := mem_of_hiccupNext hnext
    exact h.source (eq_false_of_ne_true htype) p hp j hj
  refine .inr ⟨fun hagrees => ?_, ?_⟩
  · exact (hagrees hdeliver hp hnext hst hmade).elim htype himm
  · simp only [react, himm', htype, Bool.false_eq_true, if_false]

lemma peer (h : Inv type s) (a : { a : EndAct // a ≠ .hiccup }) :
    ∃ t, s.step type (.peer p a) = .ok t ∧ Inv type t := by
  by_cases hp : p < s.count
  swap
  · exact ⟨s, if_neg hp, h⟩
  obtain ⟨l, e, hact, hl⟩ := h.onPeer hp a.1 fun heq => absurd heq a.2
  refine ⟨(s.setLink p l).peerReact p e, by simp only [HiccupSocket.step, if_pos hp, hact], ?_⟩
  unfold peerReact
  split
  · split
    · exact hl
    · split
      · exact hl.setPipe fun _ hnone => (by cases hnone)
      · exact hl
  · exact hl

/-- **Every step from a state of the invariant agrees and leads back into it, or does not agree and fails.** -/
theorem step (h : Inv type s) (a : HiccupAct) :
    (s.Agrees type a ∧ ∃ t, s.step type a = .ok t ∧ Inv type t) ∨
      (¬s.Agrees type a ∧ s.step type a = .error .xhiccuped) := by
  cases a with
  | setImmediate b => exact .inl ⟨trivial, _, rfl, h.shutdown, h.owner, h.pipe, h.source⟩
  | connect multicast hwm0 hwm1 => exact .inl ⟨trivial, _, rfl, h.connect multicast hwm0 hwm1⟩
  | processBind hwm0 hwm1 =>
    exact .inl ⟨trivial, _, rfl, h.newPair (.pipepair hwm0 hwm1) rfl fun _ hnone => (by cases hnone)⟩
  | processAttach c hwm0 hwm1 =>
    refine .inl ⟨trivial, _, rfl, ?_⟩
    split
    next hc => exact h.processAttach hc hwm0 hwm1
    next => exact h
  | reconnect c =>
    refine .inl ⟨trivial, ?_⟩
    by_cases hc : c < s.sessions
    · obtain ⟨t, ht, hinv⟩ := h.reconnect hc
      exact ⟨t, (if_pos hc).trans ht, hinv⟩
    · exact ⟨s, if_neg hc, h⟩
  | socket p a => exact h.socket a
  | peer p a => exact .inl ⟨trivial, h.peer a⟩

end Inv

/-- **Hiccups.** For every type of socket a run fails with the assertion of `xhiccuped` exactly if some step does not
agree, and succeeds otherwise. -/
theorem hiccups_handled_iff (type : SocketType) (acts : List HiccupAct) :
    ((∃ s, run type acts = .ok s) ↔ StepsMeet (step type) (Agrees type) new acts) ∧
      (run type acts = .error .xhiccuped ↔ ¬StepsMeet (step type) (Agrees type) new acts) := by
  have hstep : ∀ s a, Inv type s → (s.Agrees type a ∧ ∃ t, s.step type a = .ok t ∧ Inv type t) ∨
      (¬s.Agrees type a ∧ s.step type a = .error .xhiccuped) := fun s a h => h.step a
  unfold run
  obtain ⟨hmeet, s, hrun, -⟩ | ⟨hnot, hfail⟩ := runSteps_dichotomy hstep (Inv.new type) acts
  · refine ⟨iff_of_true ⟨s, hrun⟩ hmeet, iff_of_false (fun hfail => ?_) (not_not_intro hmeet)⟩
    rw [hrun] at hfail
    cases hfail
  · refine ⟨iff_of_false ?_ hnot, iff_of_true hfail hnot⟩
    rintro ⟨s, hrun⟩
    rw [hfail] at hrun
    cases hrun

/-- A `DEALER` connects with `ZMQ_IMMEDIATE`, the option is switched off, and the connection is made and lost. -/
theorem hiccups_not_handled :
    run .dealer [.setImmediate true, .connect false 1000 1000, .setImmediate false, .processAttach 0 1000 1000,
      .reconnect 0, .socket 0 ⟨.deliver, by decide⟩] = .error .xhiccuped := by
  rfl

end HiccupSocket

end Zmq
