import ZeroMQ.Pattern.FqFair
import ZeroMQ.Trie.Trie

/-!
# What a subscriber receives

A subscriber takes messages through a fair queue and hands out those whose first frame begins with a
subscribed string. `xsub_t::xrecv` looks for such a message, dropping the others with all their frames,
and `xsub_t::xhas_in` does the same but keeps the first frame for the next call of `xrecv`.

Both are loops around `fq_t::recv`, and the peers go on while they run, so one round of a loop is one step
of `SubSystem`; `SubCall` says which call is running and where it stands. The subscriptions do not
change, and the pipes are those of the fair queue.
-/

namespace Zmq

open Foundation List Except Prod Bool

/-- What can go wrong when a subscriber receives. -/
inductive SubFault
  | pattern (fault : PatternFault)
  | trie (fault : TrieFault)
  /-- `errno_assert (rc == 0)` fails: the rest of a message is not there. -/
  | assertFailed
  deriving DecidableEq, Repr

/-- The call that is running, and the loop it is in. -/
inductive SubCall
  | idle
  /-- `xrecv` looks for a message. -/
  | xrecv
  /-- `xrecv` drops the rest of a message. -/
  | xrecvRest
  /-- `xhas_in` looks for a message. -/
  | xhasIn
  /-- `xhas_in` drops the rest of a message. -/
  | xhasInRest
  deriving DecidableEq, Repr

/-- A message without a body, as `msg_t::init` makes it. -/
def Msg.init : Msg := ⟨.data, MsgFlags.none, []⟩

/-- The receiving side of `xsub_t` with its pipes. -/
structure SubSystem where
  fq : FqSystem
  subscriptions : Trie
  /-- The option that distinguishes a SUB socket from an XSUB socket. -/
  filter : Bool
  /-- The field `message` holds a frame that `xhas_in` has found. -/
  hasMessage : Bool
  message : Msg
  /-- Part of a multipart message was handed out already. -/
  more : Bool
  call : SubCall
  /-- The frames that `xrecv` has returned, oldest first. -/
  returned : List Msg
  /-- The last call was one of `xhas_in` that returned true. -/
  promised : Bool

/-- A step of the system. -/
inductive SubAct
  /-- The application calls `xrecv`. -/
  | xrecv
  /-- The application calls `xhas_in`. -/
  | xhasIn
  /-- The call that is running goes on with its loop. -/
  | round
  /-- A pipe is attached, or something happens to one. -/
  | pipe (act : { a : FqAct // a ≠ .recv ∧ a ≠ .hasIn })

/-- `fq_t::recv`. -/
def FqSystem.recvFrame (s : FqSystem) : Except PatternFault (Option Msg × FqSystem) :=
  match s.fq.recvpipe s.links with
  | .error e => .error e
  | .ok (none, fq, links) => .ok (none, { s with fq := fq, links := links })
  | .ok (some f, fq, links) => .ok (some f.1, { s with fq := fq, links := links }.record f)

namespace SubSystem

/-- A subscriber without pipes. -/
def new (t : Trie) : SubSystem := ⟨FqSystem.new, t, true, false, Msg.init, false, .idle, [], false⟩

/-- `!options.filter || match (msg_)`. -/
def accepts (s : SubSystem) (m : Msg) : Except SubFault Bool :=
  if s.filter then
    match Trie.check m.body s.subscriptions with
    | .error e => .error (.trie e)
    | .ok b => .ok b
  else .ok true

/-- One round of the loop of `xsub_t::xrecv`. -/
def xrecvRound (s : SubSystem) : Except SubFault SubSystem :=
  match s.fq.recvFrame with
  | .error e => .error (.pattern e)
  | .ok (none, fq) => .ok { s with fq := fq, call := .idle, promised := false }
  | .ok (some m, fq) =>
    match if s.more then .ok true else s.accepts m with
    | .error e => .error e
    | .ok true => .ok { s with
        fq := fq, more := m.more, call := .idle, returned := s.returned ++ [m], promised := false }
    | .ok false => .ok { s with
        fq := fq, call := if m.more then .xrecvRest else .xrecv, promised := false }

/-- `xsub_t::xrecv` up to the end of its first round. -/
def xrecv (s : SubSystem) : Except SubFault SubSystem :=
  if s.hasMessage then
    .ok { s with
      hasMessage := false, message := Msg.init, more := s.message.more
      returned := s.returned ++ [s.message], promised := false }
  else s.xrecvRound

/-- One round of the loop of `xsub_t::xhas_in`. -/
def xhasInRound (s : SubSystem) : Except SubFault SubSystem :=
  match s.fq.recvFrame with
  | .error e => .error (.pattern e)
  | .ok (none, fq) => .ok { s with fq := fq, message := Msg.init, call := .idle, promised := false }
  | .ok (some m, fq) =>
    match s.accepts m with
    | .error e => .error e
    | .ok true => .ok { s with
        fq := fq, message := m, hasMessage := true, call := .idle, promised := true }
    | .ok false => .ok { s with
        fq := fq, message := m, call := if m.more then .xhasInRest else .xhasIn, promised := false }

/-- `xsub_t::xhas_in` up to the end of its first round. -/
def xhasIn (s : SubSystem) : Except SubFault SubSystem :=
  if s.more then .ok { s with promised := true }
  else if s.hasMessage then .ok { s with promised := true }
  else s.xhasInRound

/-- One round of the loop `while (msg_->flags () & msg_t::more)` of either call: `again` is where it stands
while there is more and `next` is the loop around it. -/
def dropRound (s : SubSystem) (again next : SubCall) : Except SubFault SubSystem :=
  match s.fq.recvFrame with
  | .error e => .error (.pattern e)
  | .ok (none, _) => .error .assertFailed
  | .ok (some m, fq) => .ok { s with
      fq := fq
      message := if next = .xhasIn then m else s.message
      call := if m.more then again else next }

/-- One step. There is one call at a time. -/
def step (s : SubSystem) : SubAct → Except SubFault SubSystem
  | .xrecv => if s.call = .idle then s.xrecv else .ok s
  | .xhasIn => if s.call = .idle then s.xhasIn else .ok s
  | .round =>
    match s.call with
    | .idle => .ok s
    | .xrecv => s.xrecvRound
    | .xrecvRest => s.dropRound .xrecvRest .xrecv
    | .xhasIn => s.xhasInRound
    | .xhasInRest => s.dropRound .xhasInRest .xhasIn
  | .pipe a =>
    match s.fq.step a.1 with
    | .error e => .error (.pattern e)
    | .ok fq => .ok { s with fq := fq }

/-- A sequence of steps. -/
def run (s : SubSystem) (acts : List SubAct) : Except SubFault SubSystem := runSteps step s acts

/-- No pipe is terminated in the middle of a message: the steps after which the fair queue keeps messages
whole. -/
def Good (s : SubSystem) : SubAct → Prop
  | .pipe a => s.fq.Good a.1
  | _ => s.fq.Good .recv

instance (s : SubSystem) (a : SubAct) : Decidable (s.Good a) :=
  match a with
  | .pipe a => inferInstanceAs (Decidable (s.fq.Good a.1))
  | .xrecv | .xhasIn | .round => inferInstanceAs (Decidable (s.fq.Good .recv))

/-! ### What should be received -/

/-- The body begins with one of the subscribed strings. -/
def Subscribed (S : Multiset (List UInt8)) (body : List UInt8) : Prop := ∃ key ∈ S, key <+: body

instance (S : Multiset (List UInt8)) (body : List UInt8) : Decidable (Subscribed S body) :=
  Multiset.decidableExistsMultiset

/-- The first frame of the message begins with one of the subscribed strings. -/
def Accepted (S : Multiset (List UInt8)) : List FrameFrom → Prop
  | [] => False
  | f :: _ => Subscribed S f.1.body

instance (S : Multiset (List UInt8)) (g : List FrameFrom) : Decidable (Accepted S g) :=
  match g with
  | [] => inferInstanceAs (Decidable False)
  | f :: _ => inferInstanceAs (Decidable (Subscribed S f.1.body))

/-- The frames of the accepted messages that came through the fair queue, the message in progress
included, in the order of the fair queue. -/
def accepted (S : Multiset (List UInt8)) (fq : FqSystem) : List Msg :=
  ((fq.received.filter (Accepted S)) ++ (if Accepted S fq.receiving then [fq.receiving] else [])).flatMap
    fun g => g.map Prod.fst

/-- The frame that `xhas_in` has found. -/
def prefetched (s : SubSystem) : List Msg := if s.hasMessage then [s.message] else []

/-- The frames handed out, together with the one that was found already, are those of the accepted
messages. -/
def Filtered (S : Multiset (List UInt8)) (s : SubSystem) : Prop :=
  s.returned ++ s.prefetched = accepted S s.fq

end SubSystem

namespace FqSystem

variable {s t : FqSystem}

/-- What a call of `fq_t::recv` takes out of the pipes. -/
inductive Takes (s t : FqSystem) : Option Msg → Prop
  /-- There is nothing, which cannot be in the middle of a message. -/
  | nothing (hnil : s.receiving = []) (hreceived : t.received = s.received)
      (hreceiving : t.receiving = []) : Takes s t none
  | more (m : Msg) (p : ℕ) (hm : m.more = true) (hreceived : t.received = s.received)
      (hreceiving : t.receiving = s.receiving ++ [(m, p)]) : Takes s t (some m)
  | last (m : Msg) (p : ℕ) (hm : m.more = false)
      (hreceived : t.received = s.received ++ [s.receiving ++ [(m, p)]])
      (hreceiving : t.receiving = []) : Takes s t (some m)

lemma recvFrame_spec (hs : FqInv s) (hgood : s.Good .recv) :
    ∃ m t, s.recvFrame = .ok (m, t) ∧ FqInv t ∧ Takes s t m := by
  obtain ⟨t, hstep, ht⟩ := hs.recv hgood
  have hframe := hstep
  rw [step] at hframe
  cases hrecv : s.fq.recvpipe s.links with
  | error e => simp [hrecv] at hframe
  | ok out =>
    obtain ⟨found, fq, links⟩ := out
    rw [hrecv] at hframe
    cases found with
    | none =>
      refine ⟨none, t, ?_, ht, ?_⟩
      · rw [recvFrame, hrecv, ← ok.inj hframe]
      have hnil : s.receiving = [] := by
        cases hs.phase with
        | between _ hnil => exact hnil
        | inside p hmore hcur hne =>
          -- in the middle of a message there is a frame
          exfalso
          cases hsearch : s.readSearch with
          | error e => simp [Fq.recvpipe, hsearch] at hrecv
          | ok out =>
            obtain ⟨found, r, l⟩ := out
            obtain ⟨-, hfound⟩ := readSearch_more hs.core.ring hmore hcur.isActive hsearch
            cases found with
            | none => cases hfound
            | some m =>
              cases hx : r.pipes.items[r.current]? with
              | none => simp [Fq.recvpipe, hsearch, hx] at hrecv
              | some x =>
                cases hm : m.more <;> simp [Fq.recvpipe, hsearch, hx, hm] at hrecv
      obtain rfl := ok.inj hframe
      exact .nothing hnil rfl hnil
    | some f =>
      obtain ⟨m, p⟩ := f
      refine ⟨some m, t, ?_, ht, ?_⟩
      · rw [recvFrame, hrecv, ← ok.inj hframe]
      obtain rfl := ok.inj hframe
      cases hm : m.more with
      | true => exact .more m p hm (by simp [record, hm]) (by simp [record, hm])
      | false => exact .last m p hm (by simp [record, hm]) (by simp [record, hm])

end FqSystem

namespace SubSystem

variable {S : Multiset (List UInt8)} {s t : SubSystem} {m : Msg} {p : ℕ} {g : List FrameFrom}

/-! ### Accepted frames -/

lemma accepted_append (hne : g ≠ []) (f : FrameFrom) : Accepted S (g ++ [f]) ↔ Accepted S g := by
  cases g with
  | nil => exact absurd rfl hne
  | cons f' g => exact Iff.rfl

lemma not_accepted_nil : ¬Accepted S [] := id

lemma accepted_eq (S : Multiset (List UInt8)) (fq : FqSystem) :
    accepted S fq = ((fq.received.filter (Accepted S)).flatMap fun g => g.map fst) ++
      if Accepted S fq.receiving then fq.receiving.map fst else [] := by
  rw [accepted, flatMap_append]
  split <;> simp

lemma accepted_takes {u v : FqSystem} (h : FqSystem.Takes u v (some m)) :
    ∃ p, (Accepted S (u.receiving ++ [(m, p)]) → accepted S v = accepted S u ++ [m]) ∧
      (¬Accepted S (u.receiving ++ [(m, p)]) → accepted S v = accepted S u) ∧
      (m.more = true → v.receiving = u.receiving ++ [(m, p)]) ∧ (m.more = false → v.receiving = []) := by
  have hbefore : ∀ p, Accepted S (u.receiving ++ [(m, p)]) →
      (if Accepted S u.receiving then u.receiving.map fst else []) = u.receiving.map fst := by
    intro p hacc
    by_cases hnil : u.receiving = []
    · rw [hnil, if_neg not_accepted_nil]
      rfl
    · rw [if_pos ((accepted_append hnil _).mp hacc)]
  have hbefore' : ∀ p, ¬Accepted S (u.receiving ++ [(m, p)]) → ¬Accepted S u.receiving := by
    intro p hnot hacc
    by_cases hnil : u.receiving = []
    · rw [hnil] at hacc
      exact hacc
    · exact hnot ((accepted_append hnil _).mpr hacc)
  cases h with
  | more m p hm hreceived hreceiving =>
    refine ⟨p, fun hacc => ?_, fun hnot => ?_, fun _ => hreceiving, fun hno => ?_⟩
    · rw [accepted_eq, accepted_eq, hreceived, hreceiving, if_pos hacc, hbefore p hacc]
      simp
    · rw [accepted_eq, accepted_eq, hreceived, hreceiving, if_neg hnot, if_neg (hbefore' p hnot)]
    · rw [hm] at hno
      cases hno
  | last m p hm hreceived hreceiving =>
    refine ⟨p, fun hacc => ?_, fun hnot => ?_, fun hyes => ?_, fun _ => hreceiving⟩
    · rw [accepted_eq, accepted_eq, hreceived, hreceiving, if_neg not_accepted_nil, hbefore p hacc]
      simp [hacc]
    · rw [accepted_eq, accepted_eq, hreceived, hreceiving, if_neg not_accepted_nil,
        if_neg (hbefore' p hnot)]
      simp [hnot]
    · rw [hm] at hyes
      cases hyes

lemma accepts_eq (hfilter : s.filter = true) (htrie : Trie.Represents s.subscriptions S) (m : Msg) :
    s.accepts m = .ok (decide (Subscribed S m.body)) := by
  obtain ⟨b, hcheck, hiff⟩ := Trie.check_spec m.body htrie.wf htrie.live
  have hb : b = decide (Subscribed S m.body) := by
    rw [Bool.eq_iff_iff, hiff, decide_eq_true_iff]
    constructor
    · rintro ⟨key, hkey, hne⟩
      exact ⟨key, Multiset.count_ne_zero.mp ((htrie.get_eq_zero key).not.mp hne), hkey⟩
    · rintro ⟨key, hkey, hbody⟩
      exact ⟨key, hbody, (htrie.get_eq_zero key).not.mpr (Multiset.count_ne_zero.mpr hkey)⟩
  rw [accepts, hfilter, if_pos rfl, hcheck, hb]

/-! ### The invariant -/

/-- Where the subscriber stands. -/
inductive Phase (S : Multiset (List UInt8)) (s : SubSystem) : Prop
  /-- Between two messages. -/
  | between (hcall : s.call = .idle ∨ s.call = .xrecv ∨ s.call = .xhasIn) (hmore : s.more = false)
      (hhas : s.hasMessage = false) (hnil : s.fq.receiving = [])
  /-- `xhas_in` has found the first frame of a message. -/
  | found (hcall : s.call = .idle) (hmore : s.more = false) (hhas : s.hasMessage = true)
      (hrest : (s.message.more = false ∧ s.fq.receiving = []) ∨
        (s.message.more = true ∧ s.fq.receiving ≠ [] ∧ Accepted S s.fq.receiving))
  /-- Part of a message was handed out. -/
  | inside (hcall : s.call = .idle) (hmore : s.more = true) (hhas : s.hasMessage = false)
      (hne : s.fq.receiving ≠ []) (hacc : Accepted S s.fq.receiving)
  /-- The rest of a message is dropped. -/
  | dropping (hcall : s.call = .xrecvRest ∨ s.call = .xhasInRest) (hmore : s.more = false)
      (hhas : s.hasMessage = false) (hne : s.fq.receiving ≠ []) (hnot : ¬Accepted S s.fq.receiving)

/-- The invariant of a subscriber. -/
structure Inv (S : Multiset (List UInt8)) (s : SubSystem) : Prop where
  fq : FqInv s.fq
  trie : Trie.Represents s.subscriptions S
  filter : s.filter = true
  phase : Phase S s
  filtered : Filtered S s
  promised : s.promised = true → s.call = .idle ∧ (s.more = true ∨ s.hasMessage = true)

lemma Inv.new {t : Trie} (h : Trie.Represents t S) : Inv S (SubSystem.new t) where
  fq := FqInv.new
  trie := h
  filter := rfl
  phase := .between (.inl rfl) rfl rfl rfl
  filtered := rfl
  promised hcon := (by cases hcon)

lemma pipe_keeps {u v : FqSystem} {a : FqAct} (hrecv : a ≠ .recv) (h : u.step a = .ok v) :
    v.received = u.received ∧ v.receiving = u.receiving := by
  cases a with
  | recv => exact absurd rfl hrecv
  | attach hwm0 hwm1 | hasIn =>
    simp only [FqSystem.step] at h
    split at h
    · cases h
    · cases h
      exact ⟨rfl, rfl⟩
  | peer p act =>
    simp only [FqSystem.step] at h
    split at h
    · split at h
      · cases h
      · cases h
        exact ⟨rfl, rfl⟩
    · cases h
      exact ⟨rfl, rfl⟩
  | owner p act =>
    simp only [FqSystem.step] at h
    split at h
    · split at h
      · cases h
      · unfold FqSystem.react at h
        split at h
        · split at h
          · cases h
          · cases h
            exact ⟨rfl, rfl⟩
        · split at h
          · cases h
          · cases h
            exact ⟨rfl, rfl⟩
        · cases h
          exact ⟨rfl, rfl⟩
    · cases h
      exact ⟨rfl, rfl⟩

lemma Inv.pipe (h : Inv S s) (a : { a : FqAct // a ≠ .recv ∧ a ≠ .hasIn }) (hgood : s.fq.Good a.1) :
    ∃ t, s.step (.pipe a) = .ok t ∧ Inv S t := by
  obtain ⟨fq, hstep, hinv⟩ := h.fq.step a.1 hgood
  obtain ⟨hreceived, hreceiving⟩ := pipe_keeps a.2.1 hstep
  refine ⟨{ s with fq := fq }, by simp only [step, hstep], hinv, h.trie, h.filter, ?_, ?_, h.promised⟩
  · cases h.phase with
    | between hcall hmore hhas hnil => exact .between hcall hmore hhas (hreceiving.trans hnil)
    | found hcall hmore hhas hrest => exact .found hcall hmore hhas (by rw [hreceiving]; exact hrest)
    | inside hcall hmore hhas hne hacc =>
      exact .inside hcall hmore hhas (by rw [hreceiving]; exact hne) (by rw [hreceiving]; exact hacc)
    | dropping hcall hmore hhas hne hnot =>
      exact .dropping hcall hmore hhas (by rw [hreceiving]; exact hne) (by rw [hreceiving]; exact hnot)
  · have hfiltered := h.filtered
    rw [Filtered, accepted, ← hreceived, ← hreceiving] at hfiltered
    exact hfiltered

/-! ### Rounds -/

/-- Where the first frame of a message is looked for, nothing has been received of it. -/
lemma Phase.receiving_nil (h : Phase S t) (hmore : t.more = false) (hhas : t.hasMessage = false)
    (hcall : t.call ≠ .xrecvRest ∧ t.call ≠ .xhasInRest) : t.fq.receiving = [] := by
  cases h with
  | between _ _ _ hnil => exact hnil
  | found _ _ hyes => rw [hhas] at hyes; cases hyes
  | inside _ hyes => rw [hmore] at hyes; cases hyes
  | dropping hdrop => exact (hdrop.elim hcall.1 hcall.2).elim

lemma Phase.handed (hcall : t.call = .idle) (hhas : t.hasMessage = false) (hmore : t.more = m.more)
    (hacc : Accepted S (g ++ [(m, p)])) (hrest : m.more = true → t.fq.receiving = g ++ [(m, p)])
    (hlast : m.more = false → t.fq.receiving = []) : Phase S t := by
  cases hm : m.more with
  | true =>
    refine .inside hcall (hmore.trans hm) hhas ?_ ?_
    · rw [hrest hm]
      simp
    · rwa [hrest hm]
  | false => exact .between (.inl hcall) (hmore.trans hm) hhas (hlast hm)

lemma Phase.dropped {again next : SubCall} (hagain : again = .xrecvRest ∨ again = .xhasInRest)
    (hnext : next = .xrecv ∨ next = .xhasIn) (hcall : t.call = if m.more then again else next)
    (hmore : t.more = false) (hhas : t.hasMessage = false) (hnot : ¬Accepted S (g ++ [(m, p)]))
    (hrest : m.more = true → t.fq.receiving = g ++ [(m, p)])
    (hlast : m.more = false → t.fq.receiving = []) : Phase S t := by
  cases hm : m.more with
  | true =>
    rw [hm, if_pos rfl] at hcall
    refine .dropping (hcall ▸ hagain) hmore hhas ?_ ?_
    · rw [hrest hm]
      simp
    · rwa [hrest hm]
  | false =>
    rw [hm, if_neg Bool.false_ne_true] at hcall
    exact .between (.inr (hcall ▸ hnext)) hmore hhas (hlast hm)

lemma Inv.nothing (h : Inv S s) {fq : FqSystem} (hinv : FqInv fq)
    (htakes : FqSystem.Takes s.fq fq none) (hhas : s.hasMessage = false) (m : Msg) :
    Inv S { s with fq := fq, message := m, call := .idle, promised := false } := by
  cases htakes with
  | nothing hnil hreceived hreceiving =>
    have hmore : s.more = false := by
      cases h.phase with
      | between _ hmore | found _ hmore | dropping _ hmore => exact hmore
      | inside _ _ _ hne => exact absurd hnil hne
    refine ⟨hinv, h.trie, h.filter, .between (.inl rfl) hmore hhas hreceiving, ?_,
      fun hcon => (by cases hcon)⟩
    have hfiltered := h.filtered
    rw [Filtered, accepted, ← hreceived, hnil, ← hreceiving] at hfiltered
    simpa only [Filtered, prefetched, hhas, accepted, false_eq_true, if_false] using hfiltered

lemma accepted_first (hnil : g = []) (m : Msg) (p : ℕ) :
    Accepted S (g ++ [(m, p)]) ↔ Subscribed S m.body := by
  rw [hnil]
  exact Iff.rfl

lemma Inv.xrecvRound (h : Inv S s) (hcall : s.call = .idle ∨ s.call = .xrecv)
    (hhas : s.hasMessage = false) (hgood : s.fq.Good .recv) :
    ∃ t, s.xrecvRound = .ok t ∧ Inv S t ∧
      (s.more = true → t.call = .idle ∧ ∃ m, t.returned = s.returned ++ [m]) := by
  obtain ⟨found, fq, hframe, hinv, htakes⟩ := FqSystem.recvFrame_spec h.fq hgood
  have hfiltered := h.filtered
  simp only [Filtered, prefetched, hhas, false_eq_true, if_false, append_nil] at hfiltered
  cases found with
  | none =>
    refine ⟨_, by simp only [SubSystem.xrecvRound, hframe], h.nothing hinv htakes hhas s.message,
      fun hmore => ?_⟩
    cases htakes with
    | nothing hnil =>
      cases h.phase with
      | between _ hno | found _ hno | dropping _ hno => rw [hno] at hmore; cases hmore
      | inside _ _ _ hne => exact absurd hnil hne
  | some m =>
    obtain ⟨p, hyes, hno, hrest, hlast⟩ := accepted_takes (S := S) htakes
    have hhand : Accepted S (s.fq.receiving ++ [(m, p)]) → Inv S { s with
        fq := fq, more := m.more, call := .idle, returned := s.returned ++ [m], promised := false } := by
      intro hacc
      refine ⟨hinv, h.trie, h.filter, .handed rfl hhas rfl hacc hrest hlast, ?_,
        fun hcon => (by cases hcon)⟩
      simp only [Filtered, prefetched, hhas, false_eq_true, if_false, append_nil, hyes hacc,
        hfiltered]
    cases hmore : s.more with
    | true =>
      have hacc : Accepted S (s.fq.receiving ++ [(m, p)]) := by
        cases h.phase with
        | between _ hno | found _ hno | dropping _ hno => rw [hno] at hmore; cases hmore
        | inside _ _ _ hne hacc => exact (accepted_append hne _).mpr hacc
      exact ⟨_, by simp only [SubSystem.xrecvRound, hframe, hmore, if_true], hhand hacc,
        fun _ => ⟨rfl, m, rfl⟩⟩
    | false =>
      have hnil := h.phase.receiving_nil hmore hhas (by rcases hcall with hc | hc <;> simp [hc])
      have hfirst := accepted_first (S := S) hnil m p
      by_cases hsub : Subscribed S m.body
      · refine ⟨_, ?_, hhand (hfirst.mpr hsub), fun hcon => (by cases hcon)⟩
        simp only [SubSystem.xrecvRound, hframe, hmore, false_eq_true, if_false,
          accepts_eq h.filter h.trie, hsub, decide_true]
      · have hnot : ¬Accepted S (s.fq.receiving ++ [(m, p)]) := fun hacc => hsub (hfirst.mp hacc)
        refine ⟨{ s with fq := fq, call := if m.more then .xrecvRest else .xrecv, promised := false }, ?_,
          ⟨hinv, h.trie, h.filter, .dropped (.inl rfl) (.inl rfl) rfl hmore hhas hnot hrest hlast,
            ?_, fun hcon => (by cases hcon)⟩, fun hcon => (by cases hcon)⟩
        · simp only [SubSystem.xrecvRound, hframe, hmore, false_eq_true, if_false,
            accepts_eq h.filter h.trie, hsub, decide_false]
        · simp only [Filtered, prefetched, hhas, false_eq_true, if_false, append_nil, hno hnot,
            hfiltered]

lemma Inv.xhasInRound (h : Inv S s) (hcall : s.call = .idle ∨ s.call = .xhasIn)
    (hmore : s.more = false) (hhas : s.hasMessage = false) (hgood : s.fq.Good .recv) :
    ∃ t, s.xhasInRound = .ok t ∧ Inv S t := by
  obtain ⟨found, fq, hframe, hinv, htakes⟩ := FqSystem.recvFrame_spec h.fq hgood
  have hfiltered := h.filtered
  simp only [Filtered, prefetched, hhas, false_eq_true, if_false, append_nil] at hfiltered
  cases found with
  | none =>
    exact ⟨_, by simp only [SubSystem.xhasInRound, hframe], h.nothing hinv htakes hhas Msg.init⟩
  | some m =>
    obtain ⟨p, hyes, hno, hrest, hlast⟩ := accepted_takes (S := S) htakes
    have hnil := h.phase.receiving_nil hmore hhas (by rcases hcall with hc | hc <;> simp [hc])
    have hfirst := accepted_first (S := S) hnil m p
    by_cases hsub : Subscribed S m.body
    · have hacc : Accepted S (s.fq.receiving ++ [(m, p)]) := hfirst.mpr hsub
      refine ⟨{ s with fq := fq, message := m, hasMessage := true, call := .idle, promised := true }, ?_,
        hinv, h.trie, h.filter, .found rfl hmore rfl ?_, ?_, fun _ => ⟨rfl, .inr rfl⟩⟩
      · simp only [SubSystem.xhasInRound, hframe, accepts_eq h.filter h.trie, hsub, decide_true]
      · cases hm : m.more with
        | true =>
          refine .inr ⟨rfl, ?_, ?_⟩
          · simp only [hrest hm]
            simp
          · simp only [hrest hm]
            exact hacc
        | false => exact .inl ⟨rfl, hlast hm⟩
      · simp only [Filtered, prefetched, if_true, hyes hacc, hfiltered]
    · have hnot : ¬Accepted S (s.fq.receiving ++ [(m, p)]) := fun hacc => hsub (hfirst.mp hacc)
      refine ⟨{ s with
          fq := fq, message := m, call := if m.more then .xhasInRest else .xhasIn, promised := false }, ?_,
        hinv, h.trie, h.filter, .dropped (.inr rfl) (.inr rfl) rfl hmore hhas hnot hrest hlast, ?_,
        fun hcon => (by cases hcon)⟩
      · simp only [SubSystem.xhasInRound, hframe, accepts_eq h.filter h.trie, hsub, decide_false]
      · simp only [Filtered, prefetched, hhas, false_eq_true, if_false, append_nil, hno hnot,
          hfiltered]

lemma Inv.dropRound (h : Inv S s) {again next : SubCall}
    (hcall : (again = .xrecvRest ∧ next = .xrecv) ∨ (again = .xhasInRest ∧ next = .xhasIn))
    (hstands : s.call = again) (hgood : s.fq.Good .recv) :
    ∃ t, s.dropRound again next = .ok t ∧ Inv S t := by
  have hidle : s.call ≠ .idle := by
    rcases hcall with ⟨hc, -⟩ | ⟨hc, -⟩ <;> rw [hstands, hc] <;> decide
  obtain ⟨hmore, hhas, hne, hnot⟩ : s.more = false ∧ s.hasMessage = false ∧ s.fq.receiving ≠ [] ∧
      ¬Accepted S s.fq.receiving := by
    cases h.phase with
    | between hb =>
      rw [hstands] at hb
      rcases hcall with ⟨hc, -⟩ | ⟨hc, -⟩ <;> rw [hc] at hb <;> rcases hb with hb | hb | hb <;> cases hb
    | found hf => exact absurd hf hidle
    | inside hi => exact absurd hi hidle
    | dropping _ hmore hhas hne hnot => exact ⟨hmore, hhas, hne, hnot⟩
  obtain ⟨found, fq, hframe, hinv, htakes⟩ := FqSystem.recvFrame_spec h.fq hgood
  cases found with
  | none =>
    cases htakes with
    | nothing hnil => exact absurd hnil hne
  | some m =>
    obtain ⟨p, -, hno, hrest, hlast⟩ := accepted_takes (S := S) htakes
    have hnot' : ¬Accepted S (s.fq.receiving ++ [(m, p)]) := fun hacc =>
      hnot ((accepted_append hne _).mp hacc)
    have hagain : again = .xrecvRest ∨ again = .xhasInRest := hcall.imp And.left And.left
    have hnext : next = .xrecv ∨ next = .xhasIn := hcall.imp And.right And.right
    refine ⟨{ s with
        fq := fq
        message := if next = .xhasIn then m else s.message
        call := if m.more then again else next }, by simp only [SubSystem.dropRound, hframe],
      hinv, h.trie, h.filter, .dropped hagain hnext rfl hmore hhas hnot' hrest hlast, ?_, fun hpromised => ?_⟩
    · have hfiltered := h.filtered
      simp only [Filtered, prefetched, hhas, false_eq_true, if_false, append_nil] at hfiltered
      simp only [Filtered, prefetched, hhas, false_eq_true, if_false, append_nil, hno hnot',
        hfiltered]
    · exact absurd (h.promised hpromised).1 hidle

lemma Inv.xrecv (h : Inv S s) (hcall : s.call = .idle) (hgood : s.fq.Good .recv) :
    ∃ t, s.step .xrecv = .ok t ∧ Inv S t ∧
      (s.promised = true → t.call = .idle ∧ ∃ m, t.returned = s.returned ++ [m]) := by
  rw [step, if_pos hcall]
  cases hhas : s.hasMessage with
  | false =>
    obtain ⟨t, hround, ht, hmore⟩ := h.xrecvRound (.inl hcall) hhas hgood
    refine ⟨t, ?_, ht, fun hpromised => hmore ?_⟩
    · rw [SubSystem.xrecv, hhas, if_neg Bool.false_ne_true, hround]
    rcases (h.promised hpromised).2 with hmore | hcon
    · exact hmore
    · rw [hhas] at hcon
      cases hcon
  | true =>
    refine ⟨{ s with
        hasMessage := false, message := Msg.init, more := s.message.more
        returned := s.returned ++ [s.message], promised := false },
      by rw [SubSystem.xrecv, hhas, if_pos rfl], ⟨h.fq, h.trie, h.filter, ?_, ?_,
        fun hcon => (by cases hcon)⟩, fun _ => ⟨hcall, s.message, rfl⟩⟩
    · cases h.phase with
      | between _ _ hno | inside _ _ hno | dropping _ _ hno => rw [hhas] at hno; cases hno
      | found _ _ _ hrest =>
        rcases hrest with ⟨hm, hnil⟩ | ⟨hm, hne, hacc⟩
        · exact .between (.inl hcall) hm rfl hnil
        · exact .inside hcall hm rfl hne hacc
    · have hfiltered := h.filtered
      simp only [Filtered, prefetched, hhas, if_true] at hfiltered
      simpa only [Filtered, prefetched, Bool.false_eq_true, if_false, append_nil] using hfiltered

lemma Phase.promise (h : Phase S s) : Phase S { s with promised := true } := by
  cases h with
  | between hcall hmore hhas hnil => exact .between hcall hmore hhas hnil
  | found hcall hmore hhas hrest => exact .found hcall hmore hhas hrest
  | inside hcall hmore hhas hne hacc => exact .inside hcall hmore hhas hne hacc
  | dropping hcall hmore hhas hne hnot => exact .dropping hcall hmore hhas hne hnot

lemma Inv.xhasIn (h : Inv S s) (hcall : s.call = .idle) (hgood : s.fq.Good .recv) :
    ∃ t, s.step .xhasIn = .ok t ∧ Inv S t := by
  have hkeep : s.more = true ∨ s.hasMessage = true → Inv S { s with promised := true } := fun hsome =>
    ⟨h.fq, h.trie, h.filter, h.phase.promise, h.filtered, fun _ => ⟨hcall, hsome⟩⟩
  rw [step, if_pos hcall]
  cases hmore : s.more with
  | true => exact ⟨_, by rw [SubSystem.xhasIn, hmore, if_pos rfl], hkeep (.inl hmore)⟩
  | false =>
    cases hhas : s.hasMessage with
    | true =>
      exact ⟨_, by rw [SubSystem.xhasIn, hmore, if_neg Bool.false_ne_true, hhas, if_pos rfl],
        hkeep (.inr hhas)⟩
    | false =>
      obtain ⟨t, hround, ht⟩ := h.xhasInRound (.inl hcall) hmore hhas hgood
      refine ⟨t, ?_, ht⟩
      rw [SubSystem.xhasIn, hmore, if_neg Bool.false_ne_true, hhas, if_neg Bool.false_ne_true, hround]

lemma Inv.step (h : Inv S s) (a : SubAct) (hgood : s.Good a) : ∃ t, s.step a = .ok t ∧ Inv S t := by
  cases a with
  | pipe a => exact h.pipe a hgood
  | xrecv =>
    by_cases hcall : s.call = .idle
    · obtain ⟨t, hstep, ht, -⟩ := h.xrecv hcall hgood
      exact ⟨t, hstep, ht⟩
    · exact ⟨s, by rw [SubSystem.step, if_neg hcall], h⟩
  | xhasIn =>
    by_cases hcall : s.call = .idle
    · exact h.xhasIn hcall hgood
    · exact ⟨s, by rw [SubSystem.step, if_neg hcall], h⟩
  | round =>
    rw [SubSystem.step]
    cases hcall : s.call with
    | idle => exact ⟨s, rfl, h⟩
    | xrecv =>
      have hhas : s.hasMessage = false := by
        cases h.phase with
        | between _ _ hhas | inside _ _ hhas | dropping _ _ hhas => exact hhas
        | found hidle => rw [hcall] at hidle; cases hidle
      obtain ⟨t, hround, ht, -⟩ := h.xrecvRound (.inr hcall) hhas hgood
      exact ⟨t, hround, ht⟩
    | xrecvRest => exact h.dropRound (.inl ⟨rfl, rfl⟩) hcall hgood
    | xhasIn =>
      obtain ⟨hmore, hhas⟩ : s.more = false ∧ s.hasMessage = false := by
        cases h.phase with
        | between _ hmore hhas | dropping _ hmore hhas => exact ⟨hmore, hhas⟩
        | found hidle | inside hidle => rw [hcall] at hidle; cases hidle
      exact h.xhasInRound (.inr hcall) hmore hhas hgood
    | xhasInRest => exact h.dropRound (.inr ⟨rfl, rfl⟩) hcall hgood

/-- What an application sees of its subscriptions. -/
structure Filters (S : Multiset (List UInt8)) (s : SubSystem) : Prop where
  /-- The fair queue gives whole messages of the pipes, in their order. -/
  atomic : s.fq.Atomic
  /-- Exactly the frames of accepted messages are handed out, in the order of the fair queue. -/
  filtered : Filtered S s
  /-- Between two messages the accepted ones were handed out as a whole. -/
  whole : s.call = .idle → s.more = false → s.hasMessage = false →
    s.returned = (s.fq.received.filter (Accepted S)).flatMap fun g => g.map Prod.fst
  /-- What `xhas_in` has promised the next call of `xrecv` returns. -/
  promise : s.promised = true → s.Good .xrecv →
    ∃ t m, s.step .xrecv = .ok t ∧ t.call = .idle ∧ t.returned = s.returned ++ [m]

lemma Inv.filters (h : Inv S s) : Filters S s where
  atomic := h.fq.atomic
  filtered := h.filtered
  whole hcall hmore hhas := by
    have hnil := h.phase.receiving_nil hmore hhas (by simp [hcall])
    have hfiltered := h.filtered
    rwa [Filtered, prefetched, hhas, if_neg Bool.false_ne_true, append_nil, accepted_eq, hnil,
      if_neg not_accepted_nil, append_nil] at hfiltered
  promise hpromised hgood := by
    obtain ⟨t, hstep, -, hreturned⟩ := h.xrecv (h.promised hpromised).1 hgood
    obtain ⟨hcall, m, hm⟩ := hreturned hpromised
    exact ⟨t, m, hstep, hcall, hm⟩

end SubSystem

/-- **Filtering.** Whatever is subscribed, in every run in which no pipe is terminated in the middle of a
message, a subscriber hands out exactly the messages whose first frame begins with a subscribed string,
frame by frame and in the order of the fair queue, and `xhas_in` promises only what `xrecv` returns. -/
theorem sub_filters {t : Trie} {S : Multiset (List UInt8)} (htrie : Trie.Represents t S)
    {acts : List SubAct} (hgood : StepsMeet SubSystem.step SubSystem.Good (SubSystem.new t) acts) :
    ∃ s, (SubSystem.new t).run acts = .ok s ∧ s.Filters S := by
  obtain ⟨s, hrun, hs⟩ := runSteps_invariant (I := SubSystem.Inv S) (fun _ a h hg => h.step a hg)
    (SubSystem.Inv.new htrie) hgood
  exact ⟨s, hrun, hs.filters⟩

/-- The trie with one string. -/
def trieOf (key : List UInt8) : Trie := ((Trie.add key Node.new).toOption.getD (true, Node.new)).2

lemma trieOf_represents (key : List UInt8) : Trie.Represents (trieOf key) {key} := by
  obtain ⟨t, hadd, ht⟩ := @Trie.Represents.add Node.new 0 Trie.Represents.new key (by simp)
  rw [trieOf, hadd]
  exact ht

/-- A message of two frames that is not wanted, another one that is, found by `xhas_in` and received. -/
theorem sub_filters_two :
    ∃ s, (SubSystem.new (trieOf [1])).run
        ([.pipe ⟨.attach 0 0, by simp⟩] ++
          ([([2], true), ([1], false), ([1, 5], true), ([7], false)].map fun f =>
            SubAct.pipe ⟨.peer 0 (.write (frameFlags f.2) f.1), by simp⟩) ++
          [.pipe ⟨.peer 0 .flush, by simp⟩, .xhasIn, .round, .round, .xrecv, .xhasIn, .xrecv, .xrecv]) =
        .ok s ∧ s.Filters {[1]} :=
  sub_filters (trieOf_represents [1]) (by decide)

end Zmq
