import ZeroMQ.Pattern.Fq
import ZeroMQ.Pattern.Lb
import ZeroMQ.Pipe.Contents

/-!
# DEALER

`dealer_t` receives through a fair queue and sends through a load balancer; every pipe is attached to
both. `Dealer` is such a socket with its pipes. REQ sockets are made of it.
-/

namespace Zmq

open Foundation Function Ensures

/-- `dealer_t`, with its pipes. -/
structure Dealer where
  fq : Fq
  lb : Lb
  links : Pipes
  /-- The address of the next pipe. -/
  count : ℕ
  probeRouter : Bool

/-- What a socket does with a pipe outside of sending and receiving: it terminates the pipe or processes
a command. -/
abbrev PipeAct := { a : EndAct // a.KeepsInput ∧ a.KeepsOutput }

namespace Dealer

/-- No pipes. -/
def new : Dealer := ⟨Fq.new, Lb.new, fun _ => Link.pipepair 0 0, 0, false⟩

/-- The probe `dealer_t::xattach_pipe` writes to a new pipe. -/
def probeMsg : Msg := ⟨.data, .none, []⟩

/-- Write the probe, if the option is set. It is no error if the pipe does not take it. -/
def probe (d : Dealer) (l : Link) : Except PipeFault Link := do
  if d.probeRouter then
    let (_, l) ← l.write probeMsg
    l.flush
  else return l

/-- `dealer_t::xattach_pipe`, for a new pipe. -/
def xattachPipe (hwm₀ hwm₁ : ℤ) (d : Dealer) : Except PatternFault Dealer :=
  match d.probe (Link.pipepair hwm₀ hwm₁) with
  | .error e => .error (.pipe e)
  | .ok l =>
    match d.fq.attach d.count, d.lb.attach d.count with
    | some fq, some lb =>
      .ok { d with fq, lb, links := update d.links d.count l, count := d.count + 1 }
    | _, _ => .error .outOfBounds

/-- `dealer_t::sendpipe`. -/
def sendpipe (m : Msg) (d : Dealer) : Except PatternFault (SendResult × Dealer) :=
  match d.lb.sendpipe m d.links with
  | .error e => .error e
  | .ok (r, lb, links) => .ok (r, { d with lb, links })

/-- `dealer_t::recvpipe`. -/
def recvpipe (d : Dealer) : Except PatternFault (Option FrameFrom × Dealer) :=
  match d.fq.recvpipe d.links with
  | .error e => .error e
  | .ok (f, fq, links) => .ok (f, { d with fq, links })

/-- `dealer_t::xhas_in`. -/
def xhasIn (d : Dealer) : Except PatternFault (Bool × Dealer) :=
  match d.fq.hasIn d.links with
  | .error e => .error e
  | .ok (b, fq, links) => .ok (b, { d with fq, links })

/-- `dealer_t::xhas_out`. -/
def xhasOut (d : Dealer) : Except PatternFault (Bool × Dealer) :=
  match d.lb.hasOut d.links with
  | .error e => .error e
  | .ok (b, lb, links) => .ok (b, { d with lb, links })

/-- `pipe->terminate (delay)`. -/
def terminate (p : ℕ) (delay : Bool) (d : Dealer) : Except PatternFault Dealer :=
  match (d.links p).terminate delay with
  | .error e => .error (.pipe e)
  | .ok l => .ok { d with links := update d.links p l }

/-- An event of a pipe: `xread_activated`, `xwrite_activated` and `xpipe_terminated`; `before` are the
pipes before the event. -/
def react (before : Pipes) (p : ℕ) (d : Dealer) : Option SinkEvent → Except PatternFault Dealer
  | some .readActivated =>
    match d.fq.activated p with
    | none => .error .outOfBounds
    | some fq => .ok { d with fq }
  | some .writeActivated =>
    match d.lb.activated p with
    | none => .error .outOfBounds
    | some lb => .ok { d with lb }
  | some .pipeTerminated =>
    match d.fq.pipeTerminated p before, d.lb.pipeTerminated p with
    | some fq, some lb => .ok { d with fq, lb }
    | _, _ => .error .outOfBounds
  | _ => .ok d

/-- The socket does something with a pipe; there may be an event. -/
def owner (p : ℕ) (a : PipeAct) (d : Dealer) : Except PatternFault (Dealer × Option SinkEvent) :=
  match (d.links p).socketAct a.1 with
  | .error e => .error (.pipe e)
  | .ok (l, e) =>
    ({ d with links := update d.links p l }.react d.links p e).map (·, e)

/-- The peer of a pipe does something. -/
def peer (p : ℕ) (a : EndAct) (d : Dealer) : Except PatternFault Dealer :=
  match (d.links p).swap.act a with
  | .error e => .error (.pipe e)
  | .ok (l, _) => .ok { d with links := update d.links p l.swap }

/-- The peer of a pipe within the process writes a frame it has received, as it is. -/
def echo (p : ℕ) (m : Msg) (d : Dealer) : Except PatternFault Dealer :=
  match (d.links p).swap.call (((d.links p).swap.write m).map Prod.snd) with
  | .error e => .error (.pipe e)
  | .ok (l, _) => .ok { d with links := update d.links p l.swap }

/-! ### What the pipes hold -/

variable {P : Msg → Prop} {d : Dealer}

/-- The first pipes hold only frames with the property. -/
def AllHold (P : Msg → Prop) (count : ℕ) (links : Pipes) : Prop := ∀ p < count, (links p).Holds P

variable {links : Pipes}

lemma AllHold.update {count p : ℕ} {l : Link} (h : AllHold P count links)
    (hl : (links p).Holds P → l.Holds P) : AllHold P count (update links p l) := by
  intro q hq
  by_cases hqp : q = p
  · subst hqp
    rw [update_self]
    exact hl (h q hq)
  · rw [update_of_ne hqp]
    exact h q hq

/-- All pipes of the socket hold only frames with the property. -/
def Holds (P : Msg → Prop) (d : Dealer) : Prop := AllHold P d.count d.links

variable {count n : ℕ}

lemma tryWrite_holds (h : AllHold P count links) {m : Msg} (hm : P m)
    (p : ℕ) : Ensures (Lb.tryWrite m p links) fun r => AllHold P count r.2 := by
  unfold Lb.tryWrite
  split
  · exact .error _
  · next ok l hwrite =>
    exact .ok (h.update fun hp => hp.write hm _ hwrite)

lemma tryCheckWrite_holds (h : AllHold P count links) (p : ℕ) :
    Ensures (Lb.tryCheckWrite p links) fun r => AllHold P count r.2 :=
  .ok (h.update fun hp => hp.checkWrite)

lemma tryRead_holds (h : AllHold P count links) (p : ℕ) :
    Ensures (Fq.tryRead p links) fun r => AllHold P count r.2 := by
  unfold Fq.tryRead
  split
  · exact .error _
  · next m l hread => exact .ok (h.update fun hp => (hp.read _ hread).1)

lemma tryCheckRead_holds (h : AllHold P count links) (p : ℕ) :
    Ensures (Fq.tryCheckRead p links) fun r => AllHold P count r.2 := by
  unfold Fq.tryCheckRead
  split
  · exact .error _
  · next ok l hread => exact .ok (h.update fun hp => hp.checkRead _ hread)

lemma search_holds {β : Type} {r : Ring ℕ}
    {probe : ℕ → Pipes → Except PatternFault (Option β × Pipes)} {onFail : Except PatternFault Unit}
    {drop : Ring ℕ → Option (Ring ℕ)} {x : Option β × Ring ℕ × Pipes}
    (hsearch : Ring.search .outOfBounds probe onFail drop n r links = .ok x)
    (hprobe : ∀ p links, AllHold P count links → Ensures (probe p links) fun r => AllHold P count r.2)
    (h : AllHold P count links) : AllHold P count x.2.2 :=
  Ring.search_ensures hprobe n h r x hsearch

section

variable (h : d.Holds P)

include h

lemma sendpipe_holds {m : Msg} (hm : P m) : Ensures (d.sendpipe m) fun r => r.2.Holds P := by
  unfold sendpipe
  split
  · exact .error _
  next r lb links hsend =>
  refine .ok ?_
  unfold Lb.sendpipe at hsend
  split at hsend
  · cases hsend
    exact h
  split at hsend
  · cases hsend
  · next r' links' hsearch =>
    cases hsend
    exact search_holds hsearch (fun p _ hl => tryWrite_holds hl hm p) h
  · next r' links' hsearch =>
    have hlinks : AllHold P d.count links' := search_holds hsearch (fun p _ hl => tryWrite_holds hl hm p) h
    unfold Lb.finishSend at hsend
    split at hsend
    · cases hsend
    split at hsend
    · cases hsend
      exact hlinks
    · split at hsend
      · cases hsend
      · next l hflush =>
        cases hsend
        exact hlinks.update fun hp => hp.flush _ hflush

lemma recvpipe_holds : Ensures d.recvpipe fun r => r.2.Holds P := by
  unfold recvpipe
  split
  · exact .error _
  next f fq links hrecv =>
  refine .ok ?_
  unfold Fq.recvpipe at hrecv
  split at hrecv
  · cases hrecv
  · next r' links' hsearch =>
    cases hrecv
    exact search_holds hsearch (fun p _ hl => tryRead_holds hl p) h
  · next m r' links' hsearch =>
    have hlinks : AllHold P d.count links' := search_holds hsearch (fun p _ hl => tryRead_holds hl p) h
    split at hrecv
    · cases hrecv
    · split at hrecv <;> (cases hrecv; exact hlinks)

lemma xhasIn_holds : Ensures d.xhasIn fun r => r.2.Holds P := by
  unfold xhasIn
  split
  · exact .error _
  next b fq links hin =>
  refine .ok ?_
  unfold Fq.hasIn at hin
  split at hin
  · cases hin
    exact h
  split at hin
  · cases hin
  · next hsearch =>
    cases hin
    exact search_holds hsearch (fun p _ hl => tryCheckRead_holds hl p) h

lemma xhasOut_holds : Ensures d.xhasOut fun r => r.2.Holds P := by
  unfold xhasOut
  split
  · exact .error _
  next b lb links hout =>
  refine .ok ?_
  unfold Lb.hasOut at hout
  split at hout
  · cases hout
    exact h
  split at hout
  · cases hout
  · next hsearch =>
    cases hout
    exact search_holds hsearch (fun p _ hl => tryCheckWrite_holds hl p) h

lemma terminate_holds (hdelim : P Msg.initDelimiter) (p : ℕ) (delay : Bool) :
    Ensures (d.terminate p delay) fun d' => d'.Holds P := by
  unfold terminate
  split
  · exact .error _
  · next l hterm => exact .ok (AllHold.update h fun hp => hp.terminate hdelim delay l hterm)

lemma xattachPipe_holds (hprobe : P probeMsg) (hwm0 hwm1 : ℤ) :
    Ensures (d.xattachPipe hwm0 hwm1) fun d' => d'.Holds P := by
  have hnew : (Link.pipepair hwm0 hwm1).Holds P := by
    constructor <;> simp [Link.pipepair, Upipe.items, Upipe.empty]
  have hl : Ensures (d.probe (Link.pipepair hwm0 hwm1)) (Link.Holds P) := by
    unfold probe
    split
    · exact bind (hnew.write hprobe) fun r hr => hr.flush
    · exact .ok hnew
  unfold xattachPipe
  split
  · exact .error _
  next l hprobe =>
  split
  · refine .ok fun q hq => ?_
    simp only
    rcases Nat.lt_succ_iff_lt_or_eq.mp hq with hq | rfl
    · rw [update_of_ne (Nat.ne_of_lt hq)]
      exact h q hq
    · rw [update_self]
      exact hl _ hprobe
  · exact .error _

lemma react_holds (before : Pipes) (p : ℕ) (e : Option SinkEvent) :
    Ensures (d.react before p e) fun d' => d'.Holds P := by
  unfold react
  split
  · split
    · exact .error _
    · exact .ok h
  · split
    · exact .error _
    · exact .ok h
  · split
    · exact .ok h
    · exact .error _
  · exact .ok h

lemma owner_holds (hdelim : P Msg.initDelimiter) (p : ℕ) (a : PipeAct) :
    Ensures (d.owner p a) fun r => r.1.Holds P := by
  have hact : (d.links p).Holds P → Ensures ((d.links p).socketAct a.1) fun r => r.1.Holds P := by
    intro hp
    have hstep : Ensures ((d.links p).act a.1) fun r => r.1.Holds P :=
      hp.act hdelim fun flags body heq => absurd a.2.2 (by rw [heq]; exact id)
    unfold Link.socketAct
    split
    · exact .error _
    · next t heq =>
      have ht : Link.Holds P t := hstep _ heq
      exact map (g := (·, none)) (ht.terminate hdelim false)
    · next t e _ heq => exact .ok (hstep _ heq)
  unfold owner
  split
  · exact .error _
  · next l e heq =>
    have hlinks : Holds P { d with links := update d.links p l } := AllHold.update h fun hp => hact hp _ heq
    exact map (react_holds hlinks d.links p e)

lemma peer_holds (hdelim : P Msg.initDelimiter)
    (hdata : ∀ flags body, P ⟨.data, flags, body⟩) (p : ℕ) (a : EndAct) :
    Ensures (d.peer p a) fun d' => d'.Holds P := by
  unfold peer
  split
  · exact .error _
  · next l e heq =>
    exact .ok (AllHold.update h fun hp =>
      (hp.swap.act hdelim (fun flags body _ => hdata flags body) _ heq).swap)

lemma echo_holds {m : Msg} (hm : P m) (p : ℕ) : Ensures (d.echo p m) fun d' => d'.Holds P := by
  unfold echo
  split
  · exact .error _
  · next l e heq =>
    refine .ok (AllHold.update h fun hp => ?_)
    have hwrite : Ensures (((d.links p).swap.write m).map Prod.snd) (Link.Holds P) :=
      map (hp.swap.write hm)
    have hcall : Ensures ((d.links p).swap.call (((d.links p).swap.write m).map Prod.snd)) fun r =>
        r.1.Holds P := by
      unfold Link.call
      split
      · exact map hwrite
      · exact .ok hp.swap
    exact (hcall _ heq).swap

/-- So does the frame that is received from one of the pipes. -/
lemma recvpipe_frame {m : Msg} {p : ℕ} {d' : Dealer} (hp : p < d.count)
    (hrecv : d.recvpipe = .ok (some (m, p), d')) : P m := by
  unfold recvpipe at hrecv
  split at hrecv
  · cases hrecv
  next f fq links hfq =>
  obtain ⟨rfl, -⟩ := Prod.mk.inj (Except.ok.inj hrecv)
  unfold Fq.recvpipe at hfq
  split at hfq
  · cases hfq
  · cases hfq
  · next m' r' links' hsearch =>
    obtain ⟨q, links0, hq, hlinks, hread⟩ := Ring.search_found
      (I := AllHold P d.count) (fun p _ hl => tryRead_holds hl p) h hsearch
    rw [hq] at hfq
    obtain ⟨rfl, rfl⟩ : m' = m ∧ q = p := by
      dsimp only at hfq
      split at hfq <;> (cases hfq; exact ⟨rfl, rfl⟩)
    unfold Fq.tryRead at hread
    split at hread
    · cases hread
    · next l hl =>
      cases hread
      exact ((hlinks q hp).read _ hl).2 _ rfl

end

end Dealer

end Zmq
