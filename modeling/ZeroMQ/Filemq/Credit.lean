import ZeroMQ.Filemq.Client
import ZeroMQ.Filemq.Dispatch

/-!
# The credit of a FileMQ client and its server

A client's account should be what the server has of it, with what is on the way: credit to the server, and bytes
to the client. Then a server that waits for credit has a client that will give it some.

A client that leaves the processing of a chunk early, as it cannot write the file or as the name does not begin
with a slash, does not take the bytes off its account, and what is not taken off is never given again. `Takes`
says that this does not happen.
-/

namespace Filemq

open Czmq Foundation List Option Except Nat Bool

/-! ### What is on the way -/

/-- The credit in requests. -/
def nomCredit : List Request → ℕ
  | [] => 0
  | .nom credit _ :: rest => credit.toNat + nomCredit rest
  | _ :: rest => nomCredit rest

/-- The bytes in replies. -/
def replyBytes (replies : List Reply) : ℕ := byteCount (replies.filterMap Reply.fields?)

lemma nomCredit_append (rs rs' : List Request) : nomCredit (rs ++ rs') = nomCredit rs + nomCredit rs' := by
  induction rs with
  | nil => exact (zero_add _).symm
  | cons r rs ih => cases r <;> simp only [cons_append, nomCredit, ih, add_assoc]

lemma replyBytes_append (rs rs' : List Reply) : replyBytes (rs ++ rs') = replyBytes rs + replyBytes rs' := by
  rw [replyBytes, filterMap_append, byteCount_append]
  rfl

lemma replyBytes_cons (r : Reply) (rs : List Reply) :
    replyBytes (r :: rs) = (r.fields?.elim 0 fun m => m.chunk.length) + replyBytes rs := by
  cases hr : r.fields? with
  | none =>
    rw [replyBytes, filterMap_cons_none hr]
    exact (zero_add _).symm
  | some m =>
    rw [replyBytes, filterMap_cons_some hr, byteCount, map_cons, sum_cons]
    rfl

/-- The accounts agree. -/
structure Link.Balanced (l : Link) : Prop where
  /-- The client's account is the server's, with what is on the way. -/
  equal : l.session.state ≠ .terminated →
    l.client.credit = l.session.credit + nomCredit l.toServer + replyBytes l.toClient
  small : l.client.credit ≤ creditSlice * 5
  /-- A server whose client has a sufficient account has credit for a chunk, unless something is on the way. -/
  enough : l.session.state ≠ .terminated → creditMinimum ≤ l.client.credit → nomCredit l.toServer = 0 →
    replyBytes l.toClient = 0 → chunkSize ≤ l.session.credit

/-- The client processes a message as it should: the name of a file begins with the path of its subscription, and
a chunk is written. -/
def Client.Takes (writable : Writable) (c : Client) (m : Cheezburger) : Prop :=
  (∀ filename, m.filename = some filename → isAbsolute filename → ∃ name, c.target filename = .ok name) ∧
    (m.chunk ≠ [] → ∃ filename, m.filename = some filename ∧ isAbsolute filename ∧
      (c.file ≠ none ∨ ∃ name, c.target filename = .ok name ∧ writable name))

/-- The server dispatches only what fits, and the client processes what it gets. -/
def Link.Meets (l : Link) : LinkAct → Prop
  | .clientReceive writable =>
    ∀ m rest, l.toClient = .cheezburger m :: rest → l.client.state = .subscribed → l.client.Takes writable m
  | .serverReceive disk => ∀ r rest, l.toServer = r :: rest → l.session.Meets (.request r disk)
  | .dispatch disk => l.session.Meets (.dispatch disk)
  | _ => True

/-! ### The client's account -/

section Client

variable {c c' : Client} {writable : Writable} {requests : List Request} {m : Cheezburger}

lemma Client.refillLoop_spec (turns credit creditToSend : ℕ) (hsmall : credit ≤ creditSlice * 5)
    (hturns : creditMinimum ≤ credit + turns * creditSlice) :
    (refillLoop turns credit creditToSend).1 + creditToSend = credit + (refillLoop turns credit creditToSend).2 ∧
      (refillLoop turns credit creditToSend).1 ≤ creditSlice * 5 ∧
      creditMinimum ≤ (refillLoop turns credit creditToSend).1 := by
  have hminimum : creditMinimum = creditSlice * 4 + 1 := rfl
  induction turns generalizing credit creditToSend with
  | zero =>
    rw [refillLoop]
    exact ⟨rfl, hsmall, by omega⟩
  | succ turns ih =>
    rw [succ_mul] at hturns
    rw [refillLoop]
    split
    · obtain ⟨hsum, hle, hge⟩ := ih (credit + creditSlice) (creditToSend + creditSlice) (by omega) (by omega)
      exact ⟨by omega, hle, hge⟩
    · exact ⟨rfl, hsmall, by omega⟩

lemma Client.refill_spec (h : c.credit ≤ creditSlice * 5) :
    c.refill.1.credit = c.credit + nomCredit c.refill.2 ∧ c.refill.1.credit ≤ creditSlice * 5 ∧
      c.refill.1.state = c.state := by
  have hturns : creditMinimum ≤ c.credit + (creditMinimum / creditSlice + 1) * creditSlice :=
    (by decide : creditMinimum ≤ (creditMinimum / creditSlice + 1) * creditSlice).trans (le_add_left _ _)
  obtain ⟨hsum, hle, -⟩ := refillLoop_spec (creditMinimum / creditSlice + 1) c.credit 0 h hturns
  rw [refill]
  generalize refillLoop (creditMinimum / creditSlice + 1) c.credit 0 = r at hsum hle
  obtain ⟨credit, creditToSend⟩ := r
  refine ⟨?_, hle, rfl⟩
  change credit = _ + nomCredit (if creditToSend = 0 then [] else [.nom (UInt64.ofNat creditToSend) c.sequence])
  have hslice : creditSlice * 5 < 2 ^ 64 := by decide
  split
  · rw [nomCredit]
    omega
  · rw [nomCredit, nomCredit, UInt64.toNat_ofNat_of_lt' (by change creditToSend < 2 ^ 64; omega)]
    omega

lemma Client.writeChunk_spec (name : CString) {chunk : List UInt8} (hbytes : chunk.length ≤ c.credit)
    (hsmall : c.credit ≤ creditSlice * 5) :
    (c.writeChunk name chunk).credit + chunk.length = c.credit ∧ (c.writeChunk name chunk).state = c.state := by
  have hslice : creditSlice * 5 < 2 ^ 64 := by decide
  rw [writeChunk]
  split
  · refine ⟨?_, rfl⟩
    change (c.credit + 2 ^ 64 - chunk.length) % 2 ^ 64 + chunk.length = c.credit
    omega
  · refine ⟨?_, rfl⟩
    change c.credit + chunk.length = c.credit
    omega

lemma Client.processThePatch_spec (htakes : c.Takes writable m) (hbytes : m.chunk.length ≤ c.credit)
    (hsmall : c.credit ≤ creditSlice * 5) (hcreate : m.chunk ≠ [] → m.operation = fileCreate) :
    ∃ c', c.processThePatch writable m = .ok c' ∧ c'.credit + m.chunk.length = c.credit ∧ c'.state = c.state := by
  obtain ⟨htarget, hwrites⟩ := htakes
  -- A message without bytes may be left unprocessed.
  have hskip : m.chunk = [] → c.credit + m.chunk.length = c.credit := fun h => by rw [h]; rfl
  rw [processThePatch]
  cases hname : m.filename with
  | none =>
    refine ⟨c, rfl, hskip ?_, rfl⟩
    by_contra hne
    obtain ⟨filename, hsome, -⟩ := hwrites hne
    rw [hname] at hsome
    cases hsome
  | some filename =>
    dsimp only
    split
    · next habsolute =>
      obtain ⟨name, hok⟩ := htarget filename hname habsolute
      rw [hok]
      change ∃ c', (if m.operation = fileCreate then _ else _) = _ ∧ _
      split
      · cases hfile : c.file with
        | some open_ =>
          obtain ⟨hcredit, hstate⟩ := c.writeChunk_spec open_ hbytes hsmall
          exact ⟨_, rfl, hcredit, hstate⟩
        | none =>
          dsimp only
          split
          · obtain ⟨hcredit, hstate⟩ := c.writeChunk_spec name hbytes hsmall
            exact ⟨_, rfl, hcredit, hstate⟩
          next hnot =>
          refine ⟨c, rfl, hskip ?_, rfl⟩
          by_contra hne
          obtain ⟨filename', hsome, -, hopen | ⟨name', hok', hwritable⟩⟩ := hwrites hne
          · exact hopen hfile
          · obtain rfl := some.inj (hname.symm.trans hsome)
            obtain rfl := ok.inj (hok.symm.trans hok')
            exact hnot hwritable
      · next hop => exact ⟨c, rfl, hskip (by_contra fun hne => hop (hcreate hne)), rfl⟩
    · next habsolute =>
      refine ⟨c, rfl, hskip ?_, rfl⟩
      by_contra hne
      obtain ⟨filename', hsome, habsolute', -⟩ := hwrites hne
      obtain rfl := some.inj (hname.symm.trans hsome)
      exact habsolute habsolute'

lemma Client.countTimeout_spec (c : Client) :
    c.countTimeout.credit = c.credit ∧ c.countTimeout.state = c.state := by
  rw [countTimeout]
  split <;> exact ⟨rfl, rfl⟩

lemma Client.addSubscription_spec (c : Client) (path : CString) : (c.addSubscription path).credit = c.credit := by
  rw [addSubscription]
  split <;> rfl

/-- A call leaves the account as it is, and sends no credit. -/
structure Client.Called (c c' : Client) (requests : List Request) : Prop where
  credit : c'.credit = c.credit
  nothing : nomCredit requests = 0
  subscribed : c.state = .subscribed → c'.state = .subscribed
  hello : c.state = .start ∨ c.state = .connecting →
    (c'.state = .start ∨ c'.state = .connecting) ∧ ∀ r ∈ requests, r = .ohai

lemma Client.call_spec (c : Client) (event : ClientCall) : c.Called (c.call event).1 (c.call event).2 := by
  have hsame : c.Called c [] := ⟨rfl, rfl, id, fun h => ⟨h, nofun⟩⟩
  -- What cannot happen before the client is connected.
  have hlater : ∀ {c' requests}, c'.credit = c.credit → nomCredit requests = 0 →
      (c.state = .subscribed → c'.state = .subscribed) → c.state = .connected ∨ c.state = .subscribed →
      c.Called c' requests := fun hcredit hnothing hsubscribed hs => by
    refine ⟨hcredit, hnothing, hsubscribed, fun h => ?_⟩
    obtain hs | hs := hs <;> rw [hs] at h <;> exact h.elim nofun nofun
  obtain ⟨htimeout, htimeout'⟩ := c.countTimeout_spec
  cases hterminated : c.terminated with
  | true =>
    unfold call
    rw [if_pos hterminated]
    exact hsame
  | false =>
    cases event with
    | constructor connects =>
      cases hs : c.state with
      | start =>
        cases connects with
        | true =>
          simp only [call, hterminated, hs, false_eq_true, if_false]
          exact ⟨rfl, rfl, fun h => (by rw [hs] at h; cases h),
            fun _ => ⟨.inr rfl, fun r hr => mem_singleton.mp hr⟩⟩
        | false =>
          simp only [call, hterminated, hs, false_eq_true, if_false]
          exact ⟨rfl, rfl, fun h => (by rw [hs] at h; cases h), fun _ => ⟨.inl rfl, nofun⟩⟩
      | _ =>
        cases connects <;>
        · simp only [call, hterminated, hs, false_eq_true, if_false]
          exact hsame
    | setInbox path =>
      cases hs : c.state with
      | connected =>
        simp only [call, hterminated, hs, false_eq_true, if_false]
        exact hlater rfl rfl (fun h => (by rw [hs] at h; cases h)) (.inl hs)
      | _ =>
        simp only [call, hterminated, hs, false_eq_true, if_false]
        exact hsame
    | subscribe path =>
      cases hs : c.state with
      | connected =>
        simp only [call, hterminated, hs, false_eq_true, if_false]
        split
        · exact hlater (c.addSubscription_spec path) rfl (fun h => (by rw [hs] at h; cases h)) (.inl hs)
        · exact hsame
      | _ =>
        simp only [call, hterminated, hs, false_eq_true, if_false]
        exact hsame
    | destructor =>
      cases hs : c.state with
      | connected =>
        simp only [call, hterminated, hs, false_eq_true, if_false]
        exact hlater rfl rfl (fun h => (by rw [hs] at h; cases h)) (.inl hs)
      | subscribed =>
        simp only [call, hterminated, hs, false_eq_true, if_false]
        exact hlater rfl rfl (fun _ => rfl) (.inr hs)
      | _ =>
        simp only [call, hterminated, hs, false_eq_true, if_false]
        exact hsame
    | expired =>
      have hstate : c.state = .subscribed → c.countTimeout.state = .subscribed := htimeout'.trans
      cases hs : c.state with
      | start =>
        simp only [call, hterminated, hs, false_eq_true, if_false]
        exact hsame
      | connecting | subscribing =>
        simp only [call, hterminated, hs, false_eq_true, if_false]
        exact ⟨htimeout, rfl, hstate, fun h => ⟨by rwa [htimeout'], nofun⟩⟩
      | connected =>
        simp only [call, hterminated, hs, false_eq_true, if_false]
        exact hlater htimeout rfl hstate (.inl hs)
      | subscribed =>
        simp only [call, hterminated, hs, false_eq_true, if_false]
        exact hlater htimeout rfl hstate (.inr hs)

lemma Client.receive_spec {r : Reply} (hzero : c.state ≠ .subscribed → c.credit = 0)
    (hsmall : c.credit ≤ creditSlice * 5) (hbytes : (r.fields?.elim 0 fun m => m.chunk.length) ≤ c.credit)
    (htakes : ∀ m, r = .cheezburger m → c.state = .subscribed → c.Takes writable m)
    (hcreate : ∀ m, r = .cheezburger m → m.chunk ≠ [] → m.operation = fileCreate) :
    ∃ c' requests, c.receive writable r = .ok (c', requests) ∧
      c'.credit + (r.fields?.elim 0 fun m => m.chunk.length) = c.credit + nomCredit requests ∧
      c'.credit ≤ creditSlice * 5 ∧ (c'.state ≠ .subscribed → c'.credit = 0) := by
  cases r with
  | ohaiOk =>
    cases hs : c.state with
    | connecting =>
      have hnone := hzero (by rw [hs]; decide)
      exact ⟨{ c with state := .connected, timeouts := 0 }, [], by simp only [receive, hs], rfl, hsmall,
        fun _ => hnone⟩
    | _ => exact ⟨c, [], by simp only [receive, hs], rfl, hsmall, hzero⟩
  | icanhazOk =>
    cases hs : c.state with
    | subscribing =>
      let c1 : Client := { c with state := .subscribed, timeouts := 0 }
      obtain ⟨hcredit, hle, hstate⟩ := @refill_spec c1 hsmall
      exact ⟨c1.refill.1, c1.refill.2, by simp only [receive, hs, c1], hcredit, hle, fun h => absurd hstate h⟩
    | _ => exact ⟨c, [], by simp only [receive, hs], rfl, hsmall, hzero⟩
  | cheezburger m =>
    by_cases hs : c.state = .subscribed
    · obtain ⟨c1, hprocess, hcredit, hstate⟩ := @processThePatch_spec
        { c with timeouts := 0, sequence := UInt64.ofNat m.sequence } writable m (htakes m rfl hs) hbytes hsmall
        (hcreate m rfl)
      have hcredit' : c1.credit + m.chunk.length = c.credit := hcredit
      obtain ⟨hrefill, hle, hstate'⟩ := @refill_spec c1 (by omega)
      refine ⟨c1.refill.1, c1.refill.2, ?_, ?_, hle, fun h => absurd (hstate'.trans (hstate.trans hs)) h⟩
      · rw [hs] at hprocess
        simp only [receive, hs]
        rw [hprocess]
        rfl
      · change _ + m.chunk.length = _
        omega
    · have hnone := hzero hs
      have hempty : m.chunk.length = 0 := by
        have hle : m.chunk.length ≤ c.credit := hbytes
        omega
      refine ⟨c, [], ?_, ?_, hsmall, hzero⟩
      swap
      · change c.credit + m.chunk.length = c.credit + 0
        omega
      cases hs' : c.state with
      | subscribed => exact absurd hs' hs
      | _ => simp only [receive, hs']
  | hugzOk => exact ⟨{ c with timeouts := 0 }, [], by simp only [receive], rfl, hsmall, hzero⟩
  | rtfm => exact ⟨{ c with timeouts := 0, terminated := true }, [], by simp only [receive], rfl, hsmall, hzero⟩

end Client

section Server

variable {s s' : Session} {input : Session.Input}

lemma Session.Logged.created (h : s.Logged) : ∀ m ∈ s.cheezburgers, m.chunk ≠ [] → m.operation = fileCreate := by
  have hchunks : ∀ {name offset bytes ms}, Chunks name offset bytes ms → ∀ m ∈ ms, m.operation = fileCreate := by
    intro name offset bytes ms h
    induction h with
    | nil offset => exact nofun
    | cons hcarries _ _ ih =>
      intro m hm
      obtain rfl | hm := mem_cons.mp hm
      · exact hcarries.operation
      · exact ih m hm
  have hparts : ∀ {l parts}, List.Forall₂ Delivered l parts → ∀ part ∈ parts, ∀ m ∈ part, m.chunk ≠ [] →
      m.operation = fileCreate := by
    intro l parts h
    induction h with
    | nil => exact nofun
    | cons hdelivered _ ih =>
      intro part hpart
      obtain rfl | hpart := mem_cons.mp hpart
      · intro m hm hne
        cases hdelivered with
        | delete _ _ _ hempty _ =>
          obtain rfl := mem_singleton.mp hm
          exact absurd hempty hne
        | create _ hms hlast =>
          obtain hm | hm := mem_append.mp hm
          · exact hchunks hms m hm
          · obtain rfl := mem_singleton.mp hm
            exact hlast.operation
        | gone _ => cases hm
      · exact ih part hpart
  obtain ⟨finished, parts, ms, hdelivered, hsent, hunder⟩ := h
  intro m hm hne
  rw [hsent, mem_append, mem_flatten] at hm
  obtain ⟨part, hpart, hm⟩ | hm := hm
  · exact hparts hdelivered part hpart m hm hne
  · cases hunder with
    | idle _ _ => cases hm
    | sending _ _ _ _ _ hms => exact hchunks hms m hm

lemma Session.stored_sent (s : Session) (input : Session.Input) :
    (s.stored input).sent = s.sent ∧ (s.stored input).state = s.state := by
  cases input with
  | request r disk =>
    cases r with
    | nom credit sequence =>
      by_cases hready : s.state = .ready
      · rw [stored_nom hready]
        exact ⟨rfl, rfl⟩
      · rw [stored_nom_of_ne hready]
        exact ⟨rfl, rfl⟩
    | _ => exact ⟨rfl, rfl⟩
  | _ => exact ⟨rfl, rfl⟩

lemma Session.step_account (hlogged : s.Logged) (hstate : s.state ≠ .dispatching) (hmeets : s.Meets input) :
    ∃ s', s.step input = .ok s' ∧ s'.Logged ∧ s'.state ≠ .dispatching ∧ (s.state ≠ .start → s'.state ≠ .start) ∧
      s'.credit + replyBytes (s'.sent.drop s.sent.length) = (s.stored input).credit ∧
      ∀ m, .cheezburger m ∈ s'.sent.drop s.sent.length → m.chunk ≠ [] → m.operation = fileCreate := by
  obtain ⟨s', hs', hrests, -⟩ := step_spec hlogged hstate hmeets
  obtain ⟨hsent, hsame⟩ := s.stored_sent input
  have hbalance := hrests.progress.balance
  obtain ⟨replies, hreplies⟩ := hsent ▸ hrests.progress.sent
  have hnew : s'.sent.drop s.sent.length = replies := by rw [← hreplies, drop_left]
  have hcheez : s'.cheezburgers = s.cheezburgers ++ replies.filterMap Reply.fields? := by
    rw [cheezburgers, ← hreplies, filterMap_append]
    rfl
  have hstored : (s.stored input).cheezburgers = s.cheezburgers := by rw [cheezburgers, hsent]; rfl
  rw [hcheez, hstored, byteCount_append] at hbalance
  refine ⟨s', hs', hrests.logged, hrests.state, fun h => hrests.started (hsame ▸ h), ?_, ?_⟩
  · rw [hnew, replyBytes]
    omega
  intro m hm hne
  refine hrests.logged.created m ?_ hne
  rw [hcheez, mem_append, mem_filterMap]
  exact .inr ⟨_, hnew ▸ hm, rfl⟩

lemma Session.step_ohai {disk : Disk} (hstart : s.state = .start) (hstep : s.step (.request .ohai disk) = .ok s') :
    s'.state = .ready := by
  have hok : s.step (.request .ohai disk) = .ok { (s.reply .ohaiOk) with state := .ready, nextEvent := none } := by
    simp only [step, handle, receive, Request.event, fuel, execute, act, hstart]
    rfl
  rw [← ok.inj (hok.symm.trans hstep)]

end Server

/-! ### Every run -/

/-- What holds of a client and its server in every run. -/
structure Link.Inv (l : Link) : Prop where
  equal : l.session.state ≠ .terminated →
    l.client.credit = l.session.credit + nomCredit l.toServer + replyBytes l.toClient
  /-- Also when the session is gone there is no more on the way than the client has given credit for. -/
  covered : replyBytes l.toClient ≤ l.client.credit
  small : l.client.credit ≤ creditSlice * 5
  zero : l.client.state ≠ .subscribed → l.client.credit = 0
  logged : l.session.Logged
  rests : l.session.state ≠ .dispatching
  /-- Before the session exists the client has only said hello. -/
  start : l.session.state = .start → (l.client.state = .start ∨ l.client.state = .connecting) ∧ l.toClient = [] ∧
    ∀ r ∈ l.toServer, r = .ohai
  created : ∀ m, .cheezburger m ∈ l.toClient → m.chunk ≠ [] → m.operation = fileCreate

namespace Link

variable {l l' : Link}

lemma Inv.counted (h : l.Inv) : l.Balanced := by
  refine ⟨h.equal, h.small, fun halive hminimum hnom hbytes => ?_⟩
  have hequal := h.equal halive
  have hchunk : chunkSize ≤ creditMinimum := by decide
  omega

lemma new_inv : Link.new.Inv :=
  ⟨fun _ => rfl, le_rfl, zero_le _, fun _ => rfl, Session.new_dispatched.logged, by decide,
    fun _ => ⟨.inl rfl, rfl, nofun⟩, nofun⟩

lemma Inv.call (h : l.Inv) (event : ClientCall) : ∃ l', l.step (.call event) = .ok l' ∧ l'.Inv := by
  obtain ⟨hcredit, hnothing, hsubscribed, hhello⟩ := l.client.call_spec event
  refine ⟨{ l with client := (l.client.call event).1, toServer := l.toServer ++ (l.client.call event).2 }, rfl,
    fun halive => ?_, hcredit.symm ▸ h.covered, hcredit.symm ▸ h.small,
    fun hs => hcredit.trans (h.zero fun h => hs (hsubscribed h)), h.logged, h.rests, fun hstart => ?_, h.created⟩
  · change (l.client.call event).1.credit = _ + nomCredit (l.toServer ++ _) + _
    rw [hcredit, nomCredit_append, hnothing]
    exact h.equal halive
  · obtain ⟨hbefore, hempty, hrequests⟩ := h.start hstart
    obtain ⟨hafter, hnew⟩ := hhello hbefore
    refine ⟨hafter, hempty, fun r hr => ?_⟩
    obtain hr | hr := mem_append.mp hr
    · exact hrequests r hr
    · exact hnew r hr

lemma Inv.clientReceive (h : l.Inv) {writable : Writable} (hmeets : l.Meets (.clientReceive writable)) :
    ∃ l', l.step (.clientReceive writable) = .ok l' ∧ l'.Inv := by
  cases hterminated : l.client.terminated with
  | true => exact ⟨l, by simp only [step, hterminated], h⟩
  | false =>
    cases hreplies : l.toClient with
    | nil => exact ⟨l, by simp only [step, hterminated, hreplies], h⟩
    | cons r rest =>
      have hbytes := h.covered
      rw [hreplies, replyBytes_cons] at hbytes
      obtain ⟨client, requests, hreceive, hcredit, hsmall, hzero⟩ := @Client.receive_spec l.client writable r h.zero
        h.small (by omega) (fun m hm hs => hmeets m rest (hm ▸ hreplies) hs)
        (fun m hm => h.created m (by rw [hreplies, hm]; exact mem_cons_self))
      refine ⟨{ l with client, toClient := rest, toServer := l.toServer ++ requests }, ?_, fun halive => ?_, ?_,
        hsmall, hzero, h.logged, h.rests, fun hstart => ?_, fun m hm => h.created m ?_⟩
      · simp only [step, hterminated, hreplies, hreceive]
      · have hequal := h.equal halive
        rw [hreplies, replyBytes_cons] at hequal
        change client.credit = l.session.credit + nomCredit (l.toServer ++ requests) + replyBytes rest
        rw [nomCredit_append]
        omega
      · change replyBytes rest ≤ client.credit
        omega
      · obtain ⟨-, hempty, -⟩ := h.start hstart
        rw [hreplies] at hempty
        cases hempty
      · rw [hreplies]
        exact mem_cons_of_mem r hm

lemma Inv.serverExecute (h : l.Inv) {input : Session.Input} {requests : List Request}
    (hmeets : l.session.Meets input) (halive : l.session.state ≠ .terminated)
    (hcredit : (l.session.stored input).credit + nomCredit requests = l.session.credit + nomCredit l.toServer)
    (hstart : ∀ s', l.session.step input = .ok s' → s'.state ≠ .start) :
    ∃ l', ({ l with toServer := requests } : Link).serverExecute input = .ok l' ∧ l'.Inv := by
  obtain ⟨s', hs', hlogged, hrests, -, haccount, hcreated⟩ := Session.step_account h.logged h.rests hmeets
  have hequal := h.equal halive
  refine ⟨{ l with
    session := s'
    toServer := requests
    toClient := l.toClient ++ s'.sent.drop l.session.sent.length }, ?_, fun _ => ?_, ?_, h.small, h.zero, hlogged,
    hrests, fun hs => absurd hs (hstart s' hs'), fun m hm => ?_⟩
  · rw [Link.serverExecute, hs']
  · change l.client.credit = s'.credit + nomCredit requests + replyBytes (l.toClient ++ _)
    rw [replyBytes_append]
    omega
  · change replyBytes (l.toClient ++ _) ≤ l.client.credit
    rw [replyBytes_append]
    omega
  · obtain hm | hm := mem_append.mp hm
    · exact h.created m hm
    · exact hcreated m hm

lemma Inv.serverReceive (h : l.Inv) {disk : Disk} (hmeets : l.Meets (.serverReceive disk)) :
    ∃ l', l.step (.serverReceive disk) = .ok l' ∧ l'.Inv := by
  cases hrequests : l.toServer with
  | nil => exact ⟨l, by simp only [step, hrequests], h⟩
  | cons r rest =>
    by_cases halive : l.session.state = .terminated
    · refine ⟨{ l with toServer := rest, toClient := l.toClient ++ [.rtfm] }, by simp only [step, hrequests, halive],
        fun hs => absurd halive hs, ?_, h.small, h.zero, h.logged, h.rests, fun hs => ?_, fun m hm => ?_⟩
      · exact (replyBytes_append _ _).trans_le h.covered
      · exact absurd (halive.symm.trans hs) (by decide)
      · obtain hm | hm := mem_append.mp hm
        · exact h.created m hm
        · cases mem_singleton.mp hm
    · have hgood := hmeets r rest hrequests
      have hstart : ∀ s', l.session.step (.request r disk) = .ok s' → s'.state ≠ .start := fun s' hs' => by
        by_cases hs : l.session.state = .start
        · obtain ⟨-, -, hohai⟩ := h.start hs
          obtain rfl := hohai r (by rw [hrequests]; exact mem_cons_self)
          rw [Session.step_ohai hs hs']
          decide
        · obtain ⟨s1, hs1, -, -, hstarted, -⟩ := Session.step_account h.logged h.rests hgood
          obtain rfl := ok.inj (hs1.symm.trans hs')
          exact hstarted hs
      have hcredit : (l.session.stored (.request r disk)).credit + nomCredit rest =
          l.session.credit + nomCredit l.toServer := by
        have hequal := h.equal halive
        have hsmall := h.small
        have hslice : creditSlice * 5 < 2 ^ 64 := by decide
        rw [hrequests] at hequal ⊢
        cases r with
        | nom credit sequence =>
          have hready : l.session.state = .ready := by
            cases hs : l.session.state with
            | ready => rfl
            | terminated => exact absurd hs halive
            | dispatching => exact absurd hs h.rests
            | start =>
              obtain ⟨-, -, hohai⟩ := h.start hs
              cases hohai _ (by rw [hrequests]; exact mem_cons_self)
          rw [Session.stored_nom hready]
          rw [nomCredit] at hequal ⊢
          change (l.session.credit + credit.toNat) % 2 ^ 64 + _ = _
          rw [mod_eq_of_lt (by omega)]
          omega
        | _ => rfl
      obtain ⟨l', hl', hinv⟩ := h.serverExecute hgood halive hcredit hstart
      refine ⟨l', ?_, hinv⟩
      rw [← hl']
      cases hs : l.session.state with
      | terminated => exact absurd hs halive
      | _ => simp only [step, hrequests, hs]

lemma Inv.serverInput (h : l.Inv) {input : Session.Input} (hmeets : l.session.Meets input)
    (hcredit : (l.session.stored input).credit = l.session.credit) :
    ∃ l', l.serverInput input = .ok l' ∧ l'.Inv := by
  cases hs : l.session.state with
  | start | terminated => exact ⟨l, by simp only [Link.serverInput, hs], h⟩
  | dispatching => exact absurd hs h.rests
  | ready =>
    obtain ⟨l', hl', hinv⟩ := h.serverExecute hmeets (by rw [hs]; decide)
      (congrArg (· + nomCredit l.toServer) hcredit)
      (fun s' hs' => by
        obtain ⟨s1, hs1, -, -, hstarted, -⟩ := Session.step_account h.logged h.rests hmeets
        obtain rfl := ok.inj (hs1.symm.trans hs')
        exact hstarted (by rw [hs]; decide))
    exact ⟨l', by simp only [Link.serverInput, hs]; exact hl', hinv⟩

/-- **Conservation of credit.** In every run in which everything fits that the server dispatches and the client
processes what it gets, every step returns, and the accounts agree. -/
theorem balanced (acts : List LinkAct) (hmeets : StepsMeet step Meets new acts) :
    ∃ l, runSteps step new acts = .ok l ∧ l.Balanced := by
  have hstep : ∀ (l : Link) (act : LinkAct), l.Inv → l.Meets act → ∃ l', l.step act = .ok l' ∧ l'.Inv :=
    fun l act h hgood => by
      cases act with
      | call event => exact h.call event
      | clientReceive writable => exact h.clientReceive hgood
      | serverReceive disk => exact h.serverReceive hgood
      | dispatch disk => exact h.serverInput hgood rfl
      | expire | refresh patches | other message => exact h.serverInput nofun rfl
  obtain ⟨l, hl, hinv⟩ := runSteps_invariant hstep new_inv hmeets
  exact ⟨l, hl, hinv.counted⟩

/-! ### Runs with a file of two bytes -/

/-- A client connects, subscribes to `/p` and gives credit; then the file `/p/a` is created. -/
def demoActs : List LinkAct :=
  [.call (.constructor true), .serverReceive Session.demoDisk, .clientReceive fun _ => true,
    .call (.setInbox (.ofBytes [105])), .call (.subscribe (.ofBytes [47, 112])),
    .serverReceive Session.demoDisk, .clientReceive fun _ => true, .refresh [Session.demoCreate],
    .serverReceive Session.demoDisk]

/-- The client with its subscription, before it gives credit. -/
def demoClient : Client :=
  { Client.new with state := .subscribing, inbox := some (.ofBytes [105]), subs := [.ofBytes [47, 112]] }

/-- The session with the file to be sent, before it gets credit. -/
def demoSession : Session := { Session.demoReady with sent := [.ohaiOk, .icanhazOk] }

lemma step_icanhazOk {l : Link} {writable : Writable} {rest : List Reply} (hr : l.toClient = .icanhazOk :: rest)
    (halive : l.client.terminated = false) (hs : l.client.state = .subscribing) :
    l.step (.clientReceive writable) =
      .ok { l with
        client := { l.client with state := .subscribed, timeouts := 0 }.refill.1
        toClient := rest
        toServer := l.toServer ++ { l.client with state := .subscribed, timeouts := 0 }.refill.2 } := by
  simp only [step, halive, hr, Client.receive, hs]

/-- The client writes the file, and the accounts agree. -/
theorem balanced_two : ∃ l, runSteps step new (demoActs ++ [.clientReceive fun _ => true]) = .ok l ∧
    l.client.credit = 4999998 ∧ l.Balanced := by
  refine okAnd.exists_and (by decide +kernel) fun l hl => ?_
  have hfits : Session.Fits Session.demoDisk
      (demoSession.stored (.request (.nom 5000000 0) Session.demoDisk)).credit [] none [Session.demoCreate] := by
    rw [show (demoSession.stored (.request (.nom 5000000 0) Session.demoDisk)).credit = 5000000 by decide +kernel]
    exact .create rfl rfl (.chunk (by decide) (by decide) (.eof (.finished _ _)))
  let s : Session := { Session.demoReady with patches := [] }
  let c' : Client := { demoClient with state := .subscribed, credit := 5000000 }
  let s' : Session := { demoSession with patches := [] }
  have hrefill : { demoClient with state := .subscribed, timeouts := 0 }.refill = (c', [.nom 5000000 0]) := by
    decide +kernel
  have hnom : step ⟨demoClient, s', [], [.icanhazOk]⟩ (.clientReceive fun _ => true) =
      .ok ⟨c', s', [.nom 5000000 0], []⟩ := by
    rw [step_icanhazOk rfl rfl rfl, hrefill]
    rfl
  have hmeets : StepsMeet step Meets new (demoActs ++ [.clientReceive fun _ => true]) := by
    refine .cons rfl trivial (.cons (show _ = ok ⟨_, s, [], [.ohaiOk]⟩ from rfl) (fun r rest hr => ?_) ?_)
    · obtain ⟨rfl, -⟩ := cons.inj hr
      exact nofun
    refine .cons rfl nofun (.cons rfl trivial ?_)
    refine .cons (show _ = ok ⟨demoClient, s, [.icanhaz], []⟩ from rfl) trivial ?_
    refine .cons (show _ = ok ⟨demoClient, s', [], [.icanhazOk]⟩ from rfl) (fun r rest hr => ?_) ?_
    · obtain ⟨rfl, -⟩ := cons.inj hr
      intro disk hdisk _
      exact .noCredit _ _ _
    refine .cons hnom nofun (.cons (show _ = ok ⟨c', demoSession, [.nom 5000000 0], []⟩ from rfl) trivial
      ⟨fun r rest hr => ?_, fun l₉ h₉ => ⟨?_, fun _ _ => trivial⟩⟩)
    · obtain ⟨rfl, -⟩ := cons.inj hr
      intro disk hdisk _
      obtain rfl : Session.demoDisk = disk := some.inj hdisk
      exact hfits
    · obtain ⟨l', hl', hclient, hhead⟩ :=
        (by decide +kernel : okAnd (step ⟨c', demoSession, [.nom 5000000 0], []⟩
          (.serverReceive Session.demoDisk)) fun l => l.client = c' ∧
            l.toClient.head?.map (Reply.fields? · |>.map Cheezburger.filename) =
              some (some (some Session.demoCreate.vpath))).exists
      obtain rfl := ok.inj (hl'.symm.trans h₉)
      intro m rest hm _
      rw [hm] at hhead
      have hname := some.inj (some.inj hhead)
      rw [hclient]
      refine ⟨fun filename hfilename _ => ?_, fun _ => ⟨_, hname, by decide, .inr ⟨_, rfl, rfl⟩⟩⟩
      obtain rfl := some.inj (hname.symm.trans hfilename)
      exact ⟨_, rfl⟩
  obtain ⟨l', hl', hbalanced⟩ := balanced _ hmeets
  obtain rfl := ok.inj (hl.symm.trans hl')
  exact hbalanced

/-- The client cannot write the file: its account is not the server's any more, with nothing on the way but the
end of the file. -/
theorem unwritable_unbalanced : ∃ l, runSteps step new (demoActs ++ [.clientReceive fun _ => false]) = .ok l ∧
    ¬l.Balanced := by
  refine okAnd.exists_imp (P := fun l => l.session.state = .ready ∧ l.client.credit = 5000000 ∧
    l.session.credit = 4999998 ∧ l.toServer = [] ∧ replyBytes l.toClient = 0) (by decide +kernel) ?_
  rintro l - ⟨hstate, hclient, hsession, hrequests, hbytes⟩ h
  have hequal := h.equal (by rw [hstate]; decide)
  rw [hclient, hsession, hrequests, hbytes] at hequal
  cases hequal

end Link

end Filemq
