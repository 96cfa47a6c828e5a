import ZeroMQ.Filemq.Server

/-!
# The dispatching loop of the FileMQ server

A created file should be sent as consecutive chunks and one empty chunk at its end, a deleted file should be told
of with one message, and no more bytes should be sent than there was credit for.

The actions say with the next event that there is no credit or that a file is gone. The machine does not look
at that: the message is sent as it is, and the last action of the event sets the next event again. So the loop
never ends once the credit does not suffice for the next chunk. `Fits` says of the credit, the current file and
the patches that this does not happen, and `dispatched` is the result about runs in which everything fits.
-/

namespace Filemq

open Czmq Foundation List Option Nat

/-! ### What should be sent -/

/-- A message has these bytes of a file at this offset; it says that the file is complete if there are none. -/
structure Carries (name : CString) (offset : ℕ) (bytes : List UInt8) (m : Cheezburger) : Prop where
  operation : m.operation = fileCreate
  filename : m.filename = some name
  offset : m.offset = offset
  chunk : m.chunk = bytes
  eof : m.eof = bytes.isEmpty

/-- Messages have consecutive chunks of a file, from an offset on. -/
inductive Chunks (name : CString) : ℕ → List UInt8 → List Cheezburger → Prop
  | nil (offset : ℕ) : Chunks name offset [] []
  | cons {offset : ℕ} {bytes rest : List UInt8} {m : Cheezburger} {ms : List Cheezburger} :
      Carries name offset bytes m → bytes ≠ [] → Chunks name (offset + bytes.length) rest ms →
        Chunks name offset (bytes ++ rest) (m :: ms)

lemma Chunks.append {name : CString} {offset : ℕ} {bytes last : List UInt8} {ms : List Cheezburger}
    {m : Cheezburger} (h : Chunks name offset bytes ms) (hm : Carries name (offset + bytes.length) last m)
    (hlast : last ≠ []) : Chunks name offset (bytes ++ last) (ms ++ [m]) := by
  induction h with
  | nil offset =>
    have hone : Chunks name offset (last ++ []) [m] := .cons hm hlast (.nil _)
    rwa [append_nil] at hone
  | @cons offset first rest m0 ms hcarries hfirst hrest ih =>
    rw [append_assoc]
    refine .cons hcarries hfirst (ih ?_)
    rwa [length_append, ← add_assoc] at hm

/-- What is sent for a patch: one message for a deleted file, the chunks and the end of a created one, and nothing
if it is gone. -/
inductive Delivered : ZdirPatch × Option (List UInt8) → List Cheezburger → Prop
  | delete {patch : ZdirPatch} {m : Cheezburger} : patch.op = .delete → m.operation = fileDelete →
      m.filename = some patch.vpath → m.chunk = [] → m.eof = false → Delivered (patch, none) [m]
  | create {patch : ZdirPatch} {contents : List UInt8} {ms : List Cheezburger} {m : Cheezburger} :
      patch.op = .create → Chunks patch.vpath 0 contents ms → Carries patch.vpath contents.length [] m →
        Delivered (patch, some contents) (ms ++ [m])
  | gone {patch : ZdirPatch} : patch.op = .create → Delivered (patch, none) []

/-- The number of bytes in messages. -/
def byteCount (ms : List Cheezburger) : ℕ := (ms.map fun m => m.chunk.length).sum

@[simp] lemma byteCount_append (ms ms' : List Cheezburger) :
    byteCount (ms ++ ms') = byteCount ms + byteCount ms' := by
  rw [byteCount, map_append, sum_append_nat]
  rfl

@[simp] lemma byteCount_singleton (m : Cheezburger) : byteCount [m] = m.chunk.length := sum_singleton

namespace Session

/-- Where the session is in the patches it has taken: all but the current one are finished, and `ms` has been sent
for the current one. -/
inductive Under (s : Session) : List (ZdirPatch × Option (List UInt8)) → List Cheezburger → Prop
  | idle : s.patch = none → s.file = none → Under s s.taken []
  | sending {finished : List (ZdirPatch × Option (List UInt8))} {patch : ZdirPatch} {contents : List UInt8}
      {ms : List Cheezburger} : s.patch = some patch → s.file = some contents → patch.op = .create →
        s.taken = finished ++ [(patch, some contents)] → s.offset ≤ contents.length →
        Chunks patch.vpath 0 (contents.take s.offset) ms → Under s finished ms

/-- What has been sent is what should be sent for the patches that have been taken. -/
def Logged (s : Session) : Prop :=
  ∃ finished parts ms, List.Forall₂ Delivered finished parts ∧ s.cheezburgers = parts.flatten ++ ms ∧
    s.Under finished ms

/-- The dispatching is right: what has been sent is right, and there was credit for it. -/
structure Dispatched (s : Session) : Prop where
  logged : s.Logged
  paid : byteCount s.cheezburgers + s.credit ≤ s.granted

/-! ### The condition -/

/-- What is left of the current file. -/
def remaining (s : Session) : Option (List UInt8) := s.file.map fun contents => contents.drop s.offset

/-- The loop ends and sends what it should, with some credit, a chunk in the message structure, the rest of the
current file and a list of patches: the credit suffices for every chunk until it is used up or all is sent, every
file can be read, and there is no chunk in the structure when the loop tells of a deleted file. -/
inductive Fits (disk : Disk) : ℕ → List UInt8 → Option (List UInt8) → List ZdirPatch → Prop
  | noCredit (chunk : List UInt8) (rest : Option (List UInt8)) (patches : List ZdirPatch) :
      Fits disk 0 chunk rest patches
  | finished (credit : ℕ) (chunk : List UInt8) : Fits disk credit chunk none []
  | delete {credit : ℕ} {patch : ZdirPatch} {patches : List ZdirPatch} : patch.op = .delete →
      Fits disk credit [] none patches → Fits disk credit [] none (patch :: patches)
  | create {credit : ℕ} {chunk contents : List UInt8} {patch : ZdirPatch} {patches : List ZdirPatch} :
      patch.op = .create → disk patch.file = some contents → Fits disk credit chunk (some contents) patches →
        Fits disk credit chunk none (patch :: patches)
  | chunk {credit : ℕ} {chunk rest : List UInt8} {patches : List ZdirPatch} : rest ≠ [] →
      (rest.take chunkSize).length ≤ credit →
      Fits disk (credit - (rest.take chunkSize).length) (rest.take chunkSize) (some (rest.drop chunkSize)) patches →
        Fits disk credit chunk (some rest) patches
  | eof {credit : ℕ} {chunk : List UInt8} {patches : List ZdirPatch} : Fits disk credit [] none patches →
      Fits disk credit chunk (some []) patches

/-- The size of the next chunk: of the current file, or of the file of the next patch. -/
def nextSize (disk : Disk) : Option (List UInt8) → List ZdirPatch → Option ℕ
  | some rest, _ => some (rest.take chunkSize).length
  | none, patch :: _ =>
    if patch.op = .create then (disk patch.file).map fun contents => (contents.take chunkSize).length else none
  | none, [] => none

/-- There is no patch, or the credit does not suffice for the next chunk. -/
def Starved (disk : Disk) (s : Session) : Prop :=
  (s.patch = none ∧ s.patches = []) ∨ ∃ size, nextSize disk s.remaining s.patches = some size ∧ s.credit < size

/-- The session with an input received, and the credit stored if it is one. -/
def stored (s : Session) : Input → Session
  | .request r _ =>
    match r, s.state with
    | .nom _ _, .ready => (s.receive r).storeClientCredit
    | _, _ => s.receive r
  | .refresh patches => { s with patches }
  | .other message => { s with message }
  | .dispatch _ | .expire => s

/-- The disk that is read if an input makes a session in the state `ready` dispatch. -/
def Input.dispatching : Input → Option Disk
  | .request .icanhaz disk | .request (.nom _ _) disk | .dispatch disk => some disk
  | _ => none

/-- Everything fits that is dispatched. -/
def Meets (s : Session) (input : Input) : Prop :=
  ∀ disk, input.dispatching = some disk → s.state = .ready →
    Fits disk (s.stored input).credit (s.stored input).message.chunk (s.stored input).remaining
      (s.stored input).patches

section Message

variable {disk : Disk} {s : Session} {patch : ZdirPatch} {contents : List UInt8}

lemma getNext_open (hpatch : s.patch = some patch) (hop : patch.op = .create) (hfile : s.file = some contents) :
    s.getNextPatchForClient disk =
      { s with message := { s.message with filename := some patch.vpath } }.nextChunk contents := by
  have hpop : s.popPatch = s := by rw [popPatch, hpatch]
  simp only [getNextPatchForClient, hpop, hpatch, hop, nextCreate, hfile]

/-- The session with a patch taken from the list and its file opened. -/
def opened (s : Session) (patch : ZdirPatch) (patches : List ZdirPatch) (contents : List UInt8) : Session :=
  { s with
    patch := some patch
    patches
    file := some contents
    offset := 0
    taken := s.taken ++ [(patch, some contents)] }

lemma getNext_create {patches : List ZdirPatch} (hpatch : s.patch = none) (hfile : s.file = none)
    (hpatches : s.patches = patch :: patches) (hop : patch.op = .create) (hdisk : disk patch.file = some contents) :
    s.getNextPatchForClient disk = (s.opened patch patches contents).getNextPatchForClient disk := by
  have hopen := @getNext_open disk (s.opened patch patches contents) patch contents rfl hop rfl
  have hpop : s.popPatch = { s with patch := some patch, patches } := by rw [popPatch, hpatch, hpatches]
  rw [hopen]
  simp only [getNextPatchForClient, hpop, hop, nextCreate, hfile, hdisk, opened]

lemma getNext_delete {patches : List ZdirPatch} (hpatch : s.patch = none)
    (hpatches : s.patches = patch :: patches) (hop : patch.op = .delete) :
    s.getNextPatchForClient disk =
      { s with patches, message := { s.message with filename := some patch.vpath } }.nextDelete patch := by
  have hpop : s.popPatch = { s with patch := some patch, patches } := by rw [popPatch, hpatch, hpatches]
  simp only [getNextPatchForClient, hpop, hop]
  rfl

end Message

/-! ### Where a loop is -/

/-- A session in its loop, with what decides how the loop goes on. -/
structure At (s : Session) (credit : ℕ) (chunk : List UInt8) (rest : Option (List UInt8))
    (patches : List ZdirPatch) : Prop where
  logged : s.Logged
  state : s.state = .dispatching
  credit : s.credit = credit
  chunk : s.message.chunk = chunk
  rest : s.remaining = rest
  patches : s.patches = patches

/-- What a loop does to the account: the bytes that are sent are paid for. -/
structure Progress (s s' : Session) : Prop where
  granted : s'.granted = s.granted
  balance : byteCount s'.cheezburgers + s'.credit = byteCount s.cheezburgers + s.credit
  sent : s.sent <+: s'.sent

lemma Progress.trans {s1 s2 s3 : Session} (h : Progress s1 s2) (h' : Progress s2 s3) : Progress s1 s3 :=
  ⟨h'.granted.trans h.granted, h'.balance.trans h.balance, h.sent.trans h'.sent⟩

/-- The session is in a file. -/
structure InFile (s : Session) (patch : ZdirPatch) (contents : List UInt8) : Prop where
  current : s.patch = some patch
  create : patch.op = .create
  file : s.file = some contents

section Next

variable {disk : Disk} {s : Session} {patch : ZdirPatch} {contents chunk rest : List UInt8} {credit : ℕ}
  {patches : List ZdirPatch}

/-- If something is left of a file, then what has been sent is all that is finished and the first part of the
file. -/
lemma Logged.inFile (h : s.Logged) (hrest : s.remaining = some rest) : ∃ patch contents finished parts ms,
    s.InFile patch contents ∧ contents.drop s.offset = rest ∧
      List.Forall₂ Delivered finished parts ∧ s.cheezburgers = parts.flatten ++ ms ∧
      s.taken = finished ++ [(patch, some contents)] ∧ s.offset ≤ contents.length ∧
      Chunks patch.vpath 0 (contents.take s.offset) ms := by
  obtain ⟨finished, parts, ms, hparts, hsent, hunder⟩ := h
  cases hunder with
  | idle _ hnone =>
    rw [remaining, hnone] at hrest
    cases hrest
  | @sending finished patch contents ms hpatch hfile hop htaken hoffset hchunks =>
    rw [remaining, hfile] at hrest
    exact ⟨patch, contents, finished, parts, ms, ⟨hpatch, hop, hfile⟩, some.inj hrest, hparts, hsent,
      htaken, hoffset, hchunks⟩

lemma Logged.idle (h : s.Logged) (hrest : s.remaining = none) : s.patch = none ∧ s.file = none ∧
    ∃ parts, List.Forall₂ Delivered s.taken parts ∧ s.cheezburgers = parts.flatten := by
  obtain ⟨finished, parts, ms, hparts, hsent, hunder⟩ := h
  cases hunder with
  | idle hpatch hfile => exact ⟨hpatch, hfile, parts, hparts, hsent.trans (append_nil _)⟩
  | sending _ hfile _ _ _ _ =>
    rw [remaining, hfile] at hrest
    cases hrest

lemma Logged.congr {s' : Session} (h : s.Logged) (hpatch : s'.patch = s.patch) (hfile : s'.file = s.file)
    (hoffset : s'.offset = s.offset) (htaken : s'.taken = s.taken) (hsent : s'.cheezburgers = s.cheezburgers) :
    s'.Logged := by
  obtain ⟨finished, parts, ms, hparts, hlog, hunder⟩ := h
  refine ⟨finished, parts, ms, hparts, hsent.trans hlog, ?_⟩
  cases hunder with
  | idle hnone hclosed =>
    rw [← htaken]
    exact .idle (hpatch.trans hnone) (hfile.trans hclosed)
  | sending hsome hopen hop htake hle hchunks =>
    rw [← hoffset] at hle hchunks
    exact .sending (hpatch.trans hsome) (hfile.trans hopen) hop (htaken.trans htake) hle hchunks

lemma forall₂_snoc {l : List (ZdirPatch × Option (List UInt8))} {parts : List (List Cheezburger)}
    {taken : ZdirPatch × Option (List UInt8)} {part : List Cheezburger} (h : List.Forall₂ Delivered l parts)
    (hpart : Delivered taken part) : List.Forall₂ Delivered (l ++ [taken]) (parts ++ [part]) :=
  rel_append h (.cons hpart .nil)

/-- The session when the actions of an event have taken the next part of a patch and sent it. -/
def afterNext (disk : Disk) (s : Session) : Session := (s.getNextPatchForClient disk).sendCheezburger

/-- The message with the next chunk of the open file. -/
def chunkMessage (s : Session) (patch : ZdirPatch) (chunk : List UInt8) : Cheezburger where
  sequence := s.sequence
  operation := fileCreate
  filename := some patch.vpath
  offset := s.offset
  eof := chunk.isEmpty
  chunk := chunk

/-- The message for a deleted file, with what is left in the message structure. -/
def deleteMessage (s : Session) (patch : ZdirPatch) : Cheezburger where
  sequence := s.sequence
  operation := fileDelete
  filename := some patch.vpath
  offset := s.message.offset
  eof := false
  chunk := s.message.chunk

lemma afterNext_inFile (hin : s.InFile patch contents) (hchunk : (contents.drop s.offset).take chunkSize = chunk)
    (hcredit : chunk.length ≤ s.credit) :
    s.afterNext disk = { s with
      message := { s.chunkMessage patch chunk with credit := s.message.credit }
      sequence := s.sequence + 1
      offset := s.offset + chunk.length
      credit := s.credit - chunk.length
      file := if chunk.isEmpty then none else some contents
      patch := if chunk.isEmpty then none else s.patch
      sent := s.sent ++ [.cheezburger (s.chunkMessage patch chunk)] } := by
  rw [afterNext, getNext_open hin.current hin.create hin.file]
  simp only [nextChunk, hchunk, if_pos hcredit]
  rfl

lemma cheezburgers_append {sent : List Reply} {m : Cheezburger} (h : s.sent = sent ++ [.cheezburger m]) :
    s.cheezburgers = sent.filterMap Reply.fields? ++ [m] := by
  rw [cheezburgers, h, filterMap_append]
  rfl

lemma At.chunk_next (h : s.At credit chunk (some rest) patches) (hrest : rest ≠ [])
    (hcredit : (rest.take chunkSize).length ≤ credit) :
    (s.afterNext disk).At (credit - (rest.take chunkSize).length) (rest.take chunkSize)
        (some (rest.drop chunkSize)) patches ∧
      Progress s (s.afterNext disk) := by
  obtain ⟨patch, contents, finished, parts, ms, hin, hdrop, hparts, hsent, htaken, hoffset, hchunks⟩ :=
    h.logged.inFile h.rest
  have hne : rest.take chunkSize ≠ [] := fun h => by
    rw [take_eq_nil_iff] at h
    exact h.elim (by decide) hrest
  have hempty : (rest.take chunkSize).isEmpty = false := isEmpty_eq_false_iff.mpr hne
  have hlength : (rest.take chunkSize).length ≤ contents.length - s.offset := by
    rw [← length_drop, hdrop]
    exact length_take_le' _ _
  have hmore := hchunks.append (m := s.chunkMessage patch (rest.take chunkSize))
    ⟨rfl, rfl, by rw [length_take, min_eq_left hoffset, zero_add]; rfl, rfl, rfl⟩ hne
  have heq := @afterNext_inFile disk s patch contents _ hin (by rw [hdrop]) (hcredit.trans_eq h.credit.symm)
  rw [hempty] at heq
  have hcheez := cheezburgers_append (congrArg sent heq)
  change _ = s.cheezburgers ++ _ at hcheez
  rw [heq] at hcheez ⊢
  refine ⟨⟨⟨finished, parts, ms ++ [s.chunkMessage patch (rest.take chunkSize)], hparts, ?_,
    .sending hin.current rfl hin.create htaken ?_ ?_⟩, h.state, ?_, rfl, ?_, h.patches⟩, rfl, ?_,
    prefix_append _ _⟩
  · rw [hcheez, hsent, append_assoc]
  · change s.offset + _ ≤ _
    omega
  · change Chunks _ _ (contents.take (s.offset + _)) _
    rwa [take_add, hdrop, length_take, ← take_eq_take_min]
  · rw [← h.credit]
  · change some (contents.drop (s.offset + _)) = _
    rw [← drop_drop, hdrop, length_take, ← drop_eq_drop_min]
  · have hle : (rest.take chunkSize).length ≤ s.credit := hcredit.trans_eq h.credit.symm
    rw [hcheez, byteCount_append, byteCount_singleton]
    change _ + (rest.take chunkSize).length + (s.credit - (rest.take chunkSize).length) = _ + s.credit
    omega

lemma At.eof_next (h : s.At credit chunk (some []) patches) :
    (s.afterNext disk).At credit [] none patches ∧ Progress s (s.afterNext disk) := by
  obtain ⟨patch, contents, finished, parts, ms, hin, hdrop, hparts, hsent, htaken, hoffset, hchunks⟩ :=
    h.logged.inFile h.rest
  have hend : s.offset = contents.length := le_antisymm hoffset (drop_eq_nil_iff.mp hdrop)
  have heq := @afterNext_inFile disk s patch contents [] hin (by rw [hdrop]; rfl) (zero_le _)
  have hcheez := cheezburgers_append (congrArg sent heq)
  change _ = s.cheezburgers ++ _ at hcheez
  rw [hend, take_length] at hchunks
  have hdone : Delivered (patch, some contents) (ms ++ [s.chunkMessage patch []]) :=
    .create hin.create hchunks ⟨rfl, rfl, hend, rfl, rfl⟩
  rw [heq] at hcheez ⊢
  refine ⟨⟨⟨s.taken, parts ++ [ms ++ [s.chunkMessage patch []]], [], htaken ▸ forall₂_snoc hparts hdone, ?_,
    .idle rfl rfl⟩, h.state,
    h.credit, rfl, rfl, h.patches⟩, rfl, ?_, prefix_append _ _⟩
  · rw [hcheez, hsent, flatten_append, flatten_singleton, append_nil, append_assoc]
  · rw [hcheez, byteCount_append, byteCount_singleton]
    rfl

lemma At.delete_next (hop : patch.op = .delete) (h : s.At credit [] none (patch :: patches)) :
    (s.afterNext disk).At credit [] none patches ∧ Progress s (s.afterNext disk) := by
  obtain ⟨hpatch, hfile, parts, hparts, hsent⟩ := h.logged.idle h.rest
  have heq : s.afterNext disk = { s with
      patches
      patch := none
      message := { s.deleteMessage patch with credit := s.message.credit }
      sequence := s.sequence + 1
      taken := s.taken ++ [(patch, none)]
      sent := s.sent ++ [.cheezburger (s.deleteMessage patch)] } := by
    rw [afterNext, getNext_delete hpatch h.patches hop]
    rfl
  have hcheez := cheezburgers_append (congrArg sent heq)
  change _ = s.cheezburgers ++ _ at hcheez
  have hdone : Delivered (patch, none) [s.deleteMessage patch] := .delete hop rfl rfl h.chunk rfl
  rw [heq] at hcheez ⊢
  refine ⟨⟨⟨_, parts ++ [[s.deleteMessage patch]], [], forall₂_snoc hparts hdone, ?_, .idle rfl hfile⟩,
    h.state, h.credit, h.chunk,
    h.rest, rfl⟩, rfl, ?_, prefix_append _ _⟩
  · rw [hcheez, hsent, flatten_append, flatten_singleton, append_nil]
  · rw [hcheez, byteCount_append, byteCount_singleton]
    change _ + s.message.chunk.length + _ = _
    rw [h.chunk]
    rfl

lemma At.opened (hop : patch.op = .create) (h : s.At credit chunk none (patch :: patches)) :
    (s.opened patch patches contents).At credit chunk (some contents) patches ∧
      Progress s (s.opened patch patches contents) := by
  obtain ⟨-, -, parts, hparts, hsent⟩ := h.logged.idle h.rest
  refine ⟨⟨⟨s.taken, parts, [], hparts, hsent.trans (append_nil _).symm,
    .sending rfl rfl hop rfl (zero_le _) (.nil 0)⟩, h.state, h.credit, h.chunk, rfl, rfl⟩, rfl, rfl,
    prefix_rfl⟩

end Next

/-! ### The loop -/

section Loop

variable {disk : Disk} {s s' : Session} {chunk chunk' : List UInt8} {rest rest' : Option (List UInt8)}
  {credit credit' n : ℕ} {patches patches' : List ZdirPatch}

/-- The event that `check_for_client_data` sets. -/
def next (s : Session) : ServerEvent :=
  if s.credit = 0 then .noCredit
  else if s.patches = [] ∧ s.patch = none then .finished
  else .sendChunk

lemma checkForClientData_eq (s : Session) : s.checkForClientData = s.setNext s.next := by
  rw [checkForClientData, next]
  split
  · rfl
  · split <;> rfl

lemma next_cases (s : Session) : s.next = .noCredit ∨ s.next = .finished ∨ s.next = .sendChunk := by
  rw [next]
  split
  · exact .inl rfl
  · split
    · exact .inr (.inl rfl)
    · exact .inr (.inr rfl)

lemma execute_mono {event : ServerEvent} (h : execute disk n s event = some s') {m : ℕ} (hle : n ≤ m) :
    execute disk m s event = some s' := by
  induction n generalizing m s event with
  | zero => cases h
  | succ n ih =>
    obtain ⟨m, rfl⟩ : ∃ k, m = k + 1 := ⟨m - 1, by omega⟩
    rw [execute] at h ⊢
    cases hnext : ({ s with nextEvent := none }.act disk event).nextEvent with
    | none =>
      rw [hnext] at h
      exact h
    | some event' =>
      rw [hnext] at h
      cases event' with
      | terminate => exact h
      | _ => exact ih h (by omega)

lemma At.setNext (h : s.At credit chunk rest patches) (event : Option ServerEvent) :
    ({ s with nextEvent := event } : Session).At credit chunk rest patches :=
  ⟨h.logged.congr rfl rfl rfl rfl rfl, h.state, h.credit, h.chunk, h.rest, h.patches⟩

/-- How a loop ends. -/
structure Settled (s s' : Session) : Prop where
  logged : s'.Logged
  state : s'.state = .ready
  progress : Progress s s'

lemma At.exit (h : s.At credit chunk rest patches) (hnext : s.next ≠ .sendChunk) :
    execute disk (n + 1) s s.next = some { s with nextEvent := none, state := .ready } ∧
      Settled s { s with nextEvent := none, state := .ready } := by
  refine ⟨?_, ⟨h.logged.congr rfl rfl rfl rfl rfl, rfl, rfl, rfl, prefix_rfl⟩⟩
  have hact : ({ s with nextEvent := none } : Session).act disk s.next =
      { s with nextEvent := none, state := .ready } := by
    obtain h' | h' | h' := s.next_cases
    · simp only [h', act, h.state]
    · simp only [h', act, h.state]
    · exact absurd h' hnext
  rw [execute, hact]

lemma execute_send (hstate : s.state = .dispatching) :
    execute disk (n + 1) s .sendChunk =
      execute disk n (({ s with nextEvent := none }.afterNext disk).checkForClientData)
        ({ s with nextEvent := none }.afterNext disk).next := by
  have hact : ({ s with nextEvent := none } : Session).act disk .sendChunk =
      ({ s with nextEvent := none }.afterNext disk).checkForClientData := by
    simp only [act, hstate]
    rfl
  rw [execute, hact, checkForClientData_eq]
  obtain h | h | h := next_cases (({ s with nextEvent := none } : Session).afterNext disk) <;>
  · rw [h]
    rfl

lemma execute_opened {patch : ZdirPatch} {contents : List UInt8} (hstate : s.state = .dispatching)
    (hpatch : s.patch = none) (hfile : s.file = none) (hpatches : s.patches = patch :: patches)
    (hop : patch.op = .create) (hdisk : disk patch.file = some contents) :
    execute disk (n + 1) s .sendChunk = execute disk (n + 1) (s.opened patch patches contents) .sendChunk := by
  have hsame : afterNext disk { s with nextEvent := none } =
      afterNext disk { s.opened patch patches contents with nextEvent := none } := by
    rw [afterNext, @getNext_create disk { s with nextEvent := none } _ _ _ hpatch hfile hpatches hop hdisk]
    rfl
  have hstate' : (s.opened patch patches contents).state = .dispatching := hstate
  rw [execute_send hstate, execute_send hstate', hsame]

lemma At.loop_cons (h : s.At credit chunk rest patches) (hnext : s.next = .sendChunk)
    (hone : ∀ {t : Session}, t.At credit chunk rest patches →
      (t.afterNext disk).At credit' chunk' rest' patches' ∧ Progress t (t.afterNext disk))
    (hloop : ∀ {t : Session}, t.At credit' chunk' rest' patches' →
      ∃ t', execute disk n t t.next = some t' ∧ Settled t t') :
    ∃ s', execute disk (n + 1) s s.next = some s' ∧ Settled s s' := by
  obtain ⟨hat, hprogress⟩ := hone (h.setNext none)
  obtain ⟨s', hexecute, hsettled⟩ := hloop (hat.setNext (some (afterNext disk { s with nextEvent := none }).next))
  have hfirst : Progress s (afterNext disk { s with nextEvent := none }) :=
    { hprogress with }
  have hrest : Progress (afterNext disk { s with nextEvent := none }) s' :=
    { hsettled.progress with }
  rw [hnext, execute_send h.state, checkForClientData_eq]
  exact ⟨s', hexecute, hsettled.logged, hsettled.state, hfirst.trans hrest⟩

/-- A bound on the number of events of a loop. -/
def work (disk : Disk) (rest : Option (List UInt8)) (patches : List ZdirPatch) : ℕ :=
  (rest.elim 0 fun rest => rest.length + 1) +
    (patches.map fun patch => ((disk patch.file).elim 0 List.length) + 2).sum + 1

/-- **The loop.** If everything fits, the loop ends and what has been sent is right. -/
theorem Fits.loop (hfits : Fits disk credit chunk rest patches) : ∀ {s : Session}, s.At credit chunk rest patches →
    ∃ s', execute disk (work disk rest patches) s s.next = some s' ∧ Settled s s' := by
  induction hfits with
  | noCredit chunk rest patches =>
    intro s h
    have hnext : s.next ≠ .sendChunk := by
      rw [next, if_pos h.credit]
      decide
    exact ⟨_, h.exit hnext⟩
  | finished credit chunk =>
    intro s h
    have hnext : s.next ≠ .sendChunk := by
      rw [next]
      split
      · decide
      · rw [if_pos ⟨h.patches, (h.logged.idle h.rest).1⟩]
        decide
    exact ⟨_, h.exit hnext⟩
  | @delete credit patch patches hop hfits ih =>
    intro s h
    by_cases hnext : s.next = .sendChunk
    · obtain ⟨s', hexecute, hsettled⟩ := h.loop_cons hnext (fun h => h.delete_next hop) ih
      refine ⟨s', execute_mono hexecute ?_, hsettled⟩
      rw [work, work, map_cons, sum_cons]
      omega
    · exact ⟨_, h.exit hnext⟩
  | @create credit chunk contents patch patches hop hdisk hfits ih =>
    intro s h
    by_cases hnext : s.next = .sendChunk
    · obtain ⟨hpatch, hfile, -⟩ := h.logged.idle h.rest
      obtain ⟨hat, hprogress⟩ := h.opened hop
      obtain ⟨s', hexecute, hsettled⟩ := ih hat
      have hopened : (s.opened patch patches contents).next = .sendChunk := by
        have hcredit : (s.opened patch patches contents).credit ≠ 0 := fun hzero => by
          have hcredit : s.credit = 0 := hzero
          rw [next, if_pos hcredit] at hnext
          cases hnext
        rw [next, if_neg hcredit, if_neg (fun h => (by cases h.2))]
      rw [hopened, work, ← execute_opened h.state hpatch hfile h.patches hop hdisk, ← hnext] at hexecute
      refine ⟨s', execute_mono hexecute ?_, hsettled.logged, hsettled.state, hprogress.trans hsettled.progress⟩
      rw [work, map_cons, sum_cons, hdisk, elim_some, elim_some, elim_none]
      omega
    · exact ⟨_, h.exit hnext⟩
  | @chunk credit chunk rest patches hrest hcredit hfits ih =>
    intro s h
    by_cases hnext : s.next = .sendChunk
    · obtain ⟨s', hexecute, hsettled⟩ := h.loop_cons hnext (fun h => h.chunk_next hrest hcredit) ih
      refine ⟨s', execute_mono hexecute ?_, hsettled⟩
      have hpos : 0 < rest.length := length_pos_of_ne_nil hrest
      have hsize : 0 < chunkSize := by decide
      rw [work, work, elim_some, elim_some, length_drop]
      omega
    · exact ⟨_, h.exit hnext⟩
  | @eof credit chunk patches hfits ih =>
    intro s h
    by_cases hnext : s.next = .sendChunk
    · obtain ⟨s', hexecute, hsettled⟩ := h.loop_cons hnext (fun h => h.eof_next) ih
      refine ⟨s', execute_mono hexecute ?_, hsettled⟩
      rw [work, work, elim_some, elim_none]
      omega
    · exact ⟨_, h.exit hnext⟩

lemma Fits.affordable (hfits : Fits disk credit chunk rest patches) {size : ℕ}
    (hsize : nextSize disk rest patches = some size) : credit = 0 ∨ size ≤ credit := by
  have hopen : ∀ {credit chunk rest patches}, Fits disk credit chunk (some rest) patches →
      credit = 0 ∨ (rest.take chunkSize).length ≤ credit := by
    intro credit chunk rest patches h
    cases h with
    | noCredit => exact .inl rfl
    | chunk _ hle _ => exact .inr hle
    | eof _ => exact .inr (zero_le _)
  cases hfits with
  | noCredit => exact .inl rfl
  | finished => cases hsize
  | delete hop _ =>
    rw [nextSize, hop] at hsize
    cases hsize
  | create hop hdisk hfits =>
    rw [nextSize, if_pos hop, hdisk] at hsize
    obtain rfl := some.inj hsize
    exact hopen hfits
  | chunk hrest hle hfits =>
    obtain rfl := some.inj hsize
    exact .inr hle
  | eof _ =>
    obtain rfl := some.inj hsize
    exact .inr (zero_le _)

lemma Fits.starved (hfits : Fits disk s.credit chunk s.remaining s.patches) (h : s.Starved disk) :
    s.next ≠ .sendChunk := by
  rw [next]
  split
  · decide
  next hcredit =>
  obtain ⟨hpatch, hpatches⟩ | ⟨size, hsize, hlt⟩ := h
  · rw [if_pos ⟨hpatches, hpatch⟩]
    decide
  · exact absurd ((hfits.affordable hsize).resolve_left hcredit) (Nat.not_le_of_lt hlt)

lemma execute_enter {t : Session} {event : ServerEvent}
    (hact : ({ s with nextEvent := none } : Session).act disk event =
      { t.checkForClientData with state := .dispatching })
    (hlogged : t.Logged) (hfits : Fits disk t.credit t.message.chunk t.remaining t.patches)
    (hn : work disk t.remaining t.patches ≤ n) :
    ∃ s', execute disk (n + 1) s event = some s' ∧ s'.Logged ∧ s'.state = .ready ∧ Progress t s' ∧
      (t.next ≠ .sendChunk → s'.cheezburgers = t.cheezburgers) := by
  have hat : ({ t with state := .dispatching, nextEvent := some t.next } : Session).At t.credit t.message.chunk
      t.remaining t.patches := ⟨hlogged.congr rfl rfl rfl rfl rfl, rfl, rfl, rfl, rfl, rfl⟩
  obtain ⟨s', hexecute, hsettled⟩ := hfits.loop hat
  have hloop : execute disk n { t with state := .dispatching, nextEvent := some t.next } t.next = some s' :=
    execute_mono hexecute hn
  refine ⟨s', ?_, hsettled.logged, hsettled.state, { hsettled.progress with }, fun hnext => ?_⟩
  · rw [execute, hact, checkForClientData_eq, ← hloop]
    obtain h | h | h := t.next_cases <;>
    · simp only [Session.setNext, h]
  · have hexit : execute disk (work disk t.remaining t.patches) _ _ = _ := (hat.exit hnext).1
    rw [← some.inj (hexit.symm.trans hexecute)]
    rfl

end Loop

/-! ### Steps -/

section Step

variable {disk : Disk} {s s' : Session} {event : ServerEvent}

/-- What the actions do on an event that does not lead to the loop: at most a message without a chunk is sent. -/
lemma act_quiet (hstate : s.state ≠ .dispatching) (hnext : s.nextEvent = none)
    (hquiet : s.state = .ready → event ≠ .icanhaz ∧ event ≠ .nom ∧ event ≠ .dispatch) :
    ∃ replies state event', s.act disk event = { s with sent := s.sent ++ replies, state, nextEvent := event' } ∧
      (∀ r ∈ replies, r.fields? = none) ∧ state ≠ .dispatching ∧ (s.state ≠ .start → state ≠ .start) ∧
      (event' = none ∨ event' = some .terminate) := by
  have hrtfm : ∀ r ∈ [Reply.rtfm], r.fields? = none := by decide
  cases hs : s.state with
  | dispatching => exact absurd hs hstate
  | terminated =>
    have hsame : s.act disk event = s := by cases event <;> simp only [act, hs]
    refine ⟨[], .terminated, none, ?_, nofun, by decide, by decide, .inl rfl⟩
    rw [hsame, append_nil, ← hs, ← hnext]
  | start =>
    cases event with
    | ohai =>
      refine ⟨[.ohaiOk], .ready, none, ?_, by decide, by decide, by decide, .inl rfl⟩
      simp only [act, hs, reply, hnext]
    | expired =>
      refine ⟨[], .start, some .terminate, ?_, nofun, by decide, by decide, .inr rfl⟩
      rw [append_nil, ← hs]
      simp only [act, hs, setNext]
    | _ =>
      refine ⟨[.rtfm], .start, some .terminate, ?_, hrtfm, by decide, by decide, .inr rfl⟩
      rw [← hs]
      simp only [act, hs, reply, setNext]
  | ready =>
    obtain ⟨hicanhaz, hnom, hdispatch⟩ := hquiet hs
    cases event with
    | icanhaz => exact absurd rfl hicanhaz
    | nom => exact absurd rfl hnom
    | dispatch => exact absurd rfl hdispatch
    | ohai =>
      refine ⟨[.ohaiOk], .ready, none, ?_, by decide, by decide, by decide, .inl rfl⟩
      simp only [act, hs, reply, hnext]
    | hugz =>
      refine ⟨[.hugzOk], .ready, none, ?_, by decide, by decide, by decide, .inl rfl⟩
      rw [← hs, ← hnext]
      simp only [act, hs, reply]
    | expired | kthxbai =>
      refine ⟨[], .ready, some .terminate, ?_, nofun, by decide, by decide, .inr rfl⟩
      rw [append_nil, ← hs]
      simp only [act, hs, setNext]
    | _ =>
      refine ⟨[.rtfm], .ready, some .terminate, ?_, hrtfm, by decide, by decide, .inr rfl⟩
      rw [← hs]
      simp only [act, hs, reply, setNext]

lemma cheezburgers_reply {r : Reply} (h : r.fields? = none) : (s.reply r).cheezburgers = s.cheezburgers := by
  rw [cheezburgers, reply, filterMap_append, filterMap_cons_none h, filterMap_nil, append_nil]
  rfl

/-- How an input leaves a session that is not dispatching. -/
structure Rests (s s' : Session) : Prop where
  logged : s'.Logged
  state : s'.state ≠ .dispatching
  started : s.state ≠ .start → s'.state ≠ .start
  progress : Progress s s'

lemma Rests.of_progress {t : Session} (h : t.Rests s') (hstate : t.state = s.state) (ht : Progress s t) :
    s.Rests s' :=
  ⟨h.logged, h.state, fun hs => h.started (hstate ▸ hs), ht.trans h.progress⟩

lemma handle_quiet (hlogged : s.Logged) (hstate : s.state ≠ .dispatching)
    (hquiet : s.state = .ready → event ≠ .icanhaz ∧ event ≠ .nom ∧ event ≠ .dispatch) :
    ∃ s', s.handle disk event = .ok s' ∧ s.Rests s' ∧ s'.cheezburgers = s.cheezburgers := by
  obtain ⟨replies, state, event', hact, hreplies, hstate', hstarted, hnext⟩ :=
    @act_quiet disk { s with nextEvent := none } event hstate rfl hquiet
  have hnone : replies.filterMap Reply.fields? = [] := filterMap_eq_nil_iff.mpr hreplies
  have hcheez : (s.sent ++ replies).filterMap Reply.fields? = s.cheezburgers := by
    rw [filterMap_append, hnone, append_nil]
    rfl
  have hrests : ∀ state event, state ≠ ServerState.dispatching → (s.state ≠ .start → state ≠ .start) →
      s.Rests { s with sent := s.sent ++ replies, state := state, nextEvent := event } := fun state event h h' =>
    ⟨hlogged.congr rfl rfl rfl rfl hcheez, h, h', rfl, congrArg (byteCount · + s.credit) hcheez,
      prefix_append _ _⟩
  obtain ⟨n, hn⟩ : ∃ n, s.fuel disk = n + 1 := ⟨_, rfl⟩
  obtain rfl | rfl := hnext
  · refine ⟨_, ?_, hrests state none hstate' hstarted, hcheez⟩
    rw [handle, hn, execute, hact]
  · refine ⟨_, ?_, hrests .terminated (some .terminate) (by decide) nofun, hcheez⟩
    rw [handle, hn, execute, hact]

lemma handle_enter {t : Session} (hact : ({ s with nextEvent := none } : Session).act disk event =
      { t.checkForClientData with state := .dispatching })
    (hlogged : t.Logged) (hfits : Fits disk t.credit t.message.chunk t.remaining t.patches)
    (hfile : t.file = s.file) (hpatches : t.patches = s.patches) :
    ∃ s', s.handle disk event = .ok s' ∧ t.Rests s' ∧ (t.Starved disk → s'.cheezburgers = t.cheezburgers) := by
  obtain ⟨n, hn⟩ : ∃ n, s.fuel disk = n + 1 := ⟨_, rfl⟩
  have hwork : work disk t.remaining t.patches ≤ n := by
    have hrest : (t.remaining.elim 0 fun rest => rest.length + 1) ≤
        s.file.elim 0 fun contents => contents.length + 1 := by
      rw [remaining, hfile]
      cases s.file with
      | none => exact le_rfl
      | some contents =>
        rw [map_some, elim_some, elim_some, length_drop]
        omega
    rw [fuel] at hn
    rw [work, hpatches]
    omega
  obtain ⟨s', hexecute, hlogged', hready, hprogress, hquiet⟩ := execute_enter hact hlogged hfits hwork
  refine ⟨s', ?_, ⟨hlogged', by rw [hready]; decide, fun _ => by rw [hready]; decide, hprogress⟩,
    fun h => hquiet (hfits.starved h)⟩
  rw [handle, hn, hexecute]

lemma stored_nom {credit sequence : UInt64} (hready : s.state = .ready) :
    s.stored (.request (.nom credit sequence) disk) =
      (s.receive (.nom credit sequence)).storeClientCredit := by
  simp only [stored, hready]

lemma stored_nom_of_ne {credit sequence : UInt64} (hready : s.state ≠ .ready) :
    s.stored (.request (.nom credit sequence) disk) = s.receive (.nom credit sequence) := by
  simp only [stored]
  split
  · next hs => exact absurd hs hready
  · rfl

/-- **One step.** If everything fits, a step returns, and what has been sent is right and paid for; and nothing is
sent when there is no patch or not enough credit. -/
theorem step_spec {input : Input} (hlogged : s.Logged) (hstate : s.state ≠ .dispatching) (hmeets : s.Meets input) :
    ∃ s', s.step input = .ok s' ∧ (s.stored input).Rests s' ∧
      ((∀ disk, input.dispatching = some disk → (s.stored input).Starved disk) →
        s'.cheezburgers = s.cheezburgers) := by
  cases input with
  | refresh patches | other message =>
    exact ⟨_, rfl, ⟨hlogged.congr rfl rfl rfl rfl rfl, hstate, id, rfl, rfl, prefix_rfl⟩, fun _ => rfl⟩
  | expire =>
    obtain ⟨s', hs', hrests, hcheez⟩ := @handle_quiet (fun _ => none) s .expired hlogged hstate (fun _ => by decide)
    exact ⟨s', hs', hrests, fun _ => hcheez⟩
  | dispatch disk =>
    by_cases hready : s.state = .ready
    · obtain ⟨s', hs', hrests, hstarved⟩ := @handle_enter disk s .dispatch { s with nextEvent := none }
        (by simp only [act, hready]) (hlogged.congr rfl rfl rfl rfl rfl) (hmeets disk rfl hready) rfl rfl
      exact ⟨s', hs', hrests.of_progress rfl ⟨rfl, rfl, prefix_rfl⟩, fun h => hstarved (h disk rfl)⟩
    · obtain ⟨s', hs', hrests, hcheez⟩ := handle_quiet hlogged hstate (fun h => absurd h hready)
      exact ⟨s', hs', hrests, fun _ => hcheez⟩
  | request r disk =>
    have hlogged' : (s.receive r).Logged := by cases r <;> exact hlogged.congr rfl rfl rfl rfl rfl
    have hstate' : (s.receive r).state = s.state := by cases r <;> rfl
    have hcheez' : (s.receive r).cheezburgers = s.cheezburgers := by cases r <;> rfl
    -- An event that does not lead to the loop.
    have hquiet : (s.state = .ready → r.event ≠ .icanhaz ∧ r.event ≠ .nom ∧ r.event ≠ .dispatch) →
        ∃ s', s.step (.request r disk) = .ok s' ∧ (s.receive r).Rests s' ∧ s'.cheezburgers = s.cheezburgers :=
      fun h => by
        obtain ⟨s', hs', hrests, hcheez⟩ := @handle_quiet disk (s.receive r) r.event hlogged'
          (by rwa [hstate']) (by rwa [hstate'])
        exact ⟨s', hs', hrests, hcheez.trans hcheez'⟩
    have hother : s.stored (.request r disk) = s.receive r → (s.state = .ready → r.event ≠ .icanhaz ∧
        r.event ≠ .nom ∧ r.event ≠ .dispatch) → ∃ s', s.step (.request r disk) = .ok s' ∧
        (s.stored (.request r disk)).Rests s' ∧ ((∀ disk', (Input.request r disk).dispatching = some disk' →
          (s.stored (.request r disk)).Starved disk') → s'.cheezburgers = s.cheezburgers) :=
      fun hstored h => by
        obtain ⟨s', hs', hrests, hcheez⟩ := hquiet h
        exact ⟨s', hs', hstored ▸ hrests, fun _ => hcheez⟩
    cases r with
    | ohai | hugz | kthxbai => exact hother rfl (fun _ => by decide)
    | other message => exact hother rfl (fun _ => ⟨nofun, nofun, nofun⟩)
    | icanhaz =>
      by_cases hready : s.state = .ready
      · have hcheez := @cheezburgers_reply { s with nextEvent := none } .icanhazOk rfl
        obtain ⟨s', hs', hrests, hstarved⟩ := @handle_enter disk s .icanhaz
          ({ s with nextEvent := none }.reply .icanhazOk) (by simp only [act, hready])
          (hlogged.congr rfl rfl rfl rfl hcheez) (hmeets disk rfl hready) rfl rfl
        have hprogress : Progress s ({ s with nextEvent := none }.reply .icanhazOk) :=
          ⟨rfl, congrArg (byteCount · + s.credit) hcheez, prefix_append _ _⟩
        exact ⟨s', hs', hrests.of_progress rfl hprogress, fun h => (hstarved (h disk rfl)).trans hcheez⟩
      · exact hother rfl (fun h => absurd h hready)
    | nom credit sequence =>
      by_cases hready : s.state = .ready
      · have hstored := @stored_nom disk s credit sequence hready
        have hfits := hmeets disk rfl hready
        rw [hstored] at hfits
        obtain ⟨s', hs', hrests, hstarved⟩ := @handle_enter disk (s.receive (.nom credit sequence)) .nom
          { (s.receive (.nom credit sequence)).storeClientCredit with nextEvent := none }
          (by simp only [act, receive, hready]; rfl) (hlogged'.congr rfl rfl rfl rfl rfl) hfits rfl rfl
        refine ⟨s', hs', ?_, fun h => hstarved ?_⟩
        · rw [hstored]
          exact hrests.of_progress rfl ⟨rfl, rfl, prefix_rfl⟩
        · exact hstored ▸ h disk rfl
      · exact hother (stored_nom_of_ne hready) (fun h => absurd h hready)

lemma stored_paid (h : byteCount s.cheezburgers + s.credit ≤ s.granted) (input : Input) :
    byteCount (s.stored input).cheezburgers + (s.stored input).credit ≤ (s.stored input).granted := by
  cases input with
  | dispatch disk | expire | refresh patches | other message => exact h
  | request r disk =>
    cases r with
    | nom credit sequence =>
      by_cases hready : s.state = .ready
      · rw [stored_nom hready]
        have hmod := mod_le (s.credit + credit.toNat) (2 ^ 64)
        change byteCount s.cheezburgers + (s.credit + credit.toNat) % 2 ^ 64 ≤ s.granted + credit.toNat
        omega
      · rw [stored_nom_of_ne hready]
        exact h
    | _ => exact h

lemma Dispatched.step {input : Input} (h : s.Dispatched) (hstate : s.state ≠ .dispatching)
    (hmeets : s.Meets input) : ∃ s', s.step input = .ok s' ∧ s'.Dispatched ∧ s'.state ≠ .dispatching ∧
      ((∀ disk, input.dispatching = some disk → (s.stored input).Starved disk) →
        s'.cheezburgers = s.cheezburgers) := by
  obtain ⟨s', hs', hrests, hquiet⟩ := step_spec h.logged hstate hmeets
  refine ⟨s', hs', ⟨hrests.logged, ?_⟩, hrests.state, hquiet⟩
  rw [hrests.progress.balance, hrests.progress.granted]
  exact stored_paid h.paid input

lemma new_dispatched : Session.new.Dispatched :=
  ⟨⟨[], [], [], .nil, rfl, .idle rfl rfl⟩, le_rfl⟩

/-- **The dispatching loop.** In every run in which everything fits, every step returns, what has been sent for
the patches that were taken is right, and there was credit for it; and no step sends anything when there is no
patch or not enough credit for the next chunk. -/
theorem dispatched (inputs : List Input) (hmeets : StepsMeet Session.step Session.Meets .new inputs) :
    ∃ s, runSteps Session.step .new inputs = .ok s ∧ s.Dispatched ∧
      ∀ input, s.Meets input → ∃ s', s.step input = .ok s' ∧
        ((∀ disk, input.dispatching = some disk → (s.stored input).Starved disk) →
          s'.cheezburgers = s.cheezburgers) := by
  have hstep : ∀ (s : Session) (input : Input), (s.Dispatched ∧ s.state ≠ .dispatching) → s.Meets input →
      ∃ s', s.step input = .ok s' ∧ s'.Dispatched ∧ s'.state ≠ .dispatching := fun s input h hgood => by
    obtain ⟨s', hs', hdispatched, hstate, -⟩ := h.1.step h.2 hgood
    exact ⟨s', hs', hdispatched, hstate⟩
  obtain ⟨s, hs, hdispatched, hstate⟩ := runSteps_invariant hstep ⟨new_dispatched, by decide⟩ hmeets
  refine ⟨s, hs, hdispatched, fun input hgood => ?_⟩
  obtain ⟨s', hs', -, -, hquiet⟩ := hdispatched.step hstate hgood
  exact ⟨s', hs', hquiet⟩

end Step

section Endless

variable {disk : Disk} {s : Session} {patch : ZdirPatch} {contents : List UInt8}

lemma execute_endless (hstate : s.state = .dispatching) (hin : s.InFile patch contents) (hcredit : 0 < s.credit)
    (hless : s.credit < ((contents.drop s.offset).take chunkSize).length) (n : ℕ) :
    execute disk n s .sendChunk = none := by
  induction n generalizing s with
  | zero => rfl
  | succ n ih =>
    have hafter : ({ s with nextEvent := none } : Session).afterNext disk =
        sendCheezburger (setNext
          { s with
            nextEvent := none
            message := { s.message with filename := some patch.vpath } } .noCredit) := by
      rw [afterNext, @getNext_open disk { s with nextEvent := none } _ _ hin.current hin.create hin.file]
      simp only [nextChunk, if_neg (Nat.not_le_of_lt hless)]
    have hnext : (({ s with nextEvent := none } : Session).afterNext disk).next = .sendChunk := by
      rw [hafter, next]
      have hpatch : s.patch ≠ none := by
        rw [hin.current]
        exact some_ne_none _
      exact (if_neg hcredit.ne').trans (if_neg fun h => hpatch h.2)
    rw [execute_send hstate, checkForClientData_eq, hnext, hafter]
    exact ih hstate { hin with } hcredit hless

end Endless

/-! ### Runs on a file of two bytes -/

/-- A file of two bytes. -/
def demoDisk : Disk := fun _ => some [1, 2]

/-- A patch for a created file. -/
def demoCreate : ZdirPatch :=
  ⟨.ofBytes [112], .ofBytes [112, 47, 97], .create, .ofBytes [47, 112, 47, 97],
    some (.ofBytes [48]), nofun⟩

/-- The file is sent, and credit for one byte is left. -/
theorem dispatched_two : ∃ s, runSteps Session.step .new [.request .ohai demoDisk, .refresh [demoCreate],
      .request (.nom 3 0) demoDisk] = .ok s ∧ s.cheezburgers.map Cheezburger.chunk = [[1, 2], []] ∧
    s.Dispatched := by
  have hrun : okAnd (runSteps Session.step .new [.request .ohai demoDisk, .refresh [demoCreate],
      .request (.nom 3 0) demoDisk]) fun s => s.cheezburgers.map Cheezburger.chunk = [[1, 2], []] := by
    decide +kernel
  obtain ⟨s, hs, hchunks⟩ := hrun.exists
  have hfits : Fits demoDisk 3 [] none [demoCreate] :=
    .create rfl rfl (.chunk (by decide) (by decide) (.eof (.finished _ _)))
  have hmeets : StepsMeet Session.step Session.Meets .new [.request .ohai demoDisk, .refresh [demoCreate],
      .request (.nom 3 0) demoDisk] := by
    refine ⟨nofun, fun s1 h1 => ⟨nofun, fun s2 h2 => ⟨?_, fun _ _ => trivial⟩⟩⟩
    obtain rfl := Except.ok.inj h1
    obtain rfl := Except.ok.inj h2
    intro disk hdisk _
    obtain rfl : demoDisk = disk := some.inj hdisk
    exact hfits
  obtain ⟨s', hs', hdispatched, -⟩ := dispatched _ hmeets
  obtain rfl := Except.ok.inj (hs.symm.trans hs')
  exact ⟨s, hs, hchunks, hdispatched⟩

/-- The session of a client that has said hello, with the file to be sent. -/
def demoReady : Session := { Session.new with state := .ready, patches := [demoCreate], sent := [.ohaiOk] }

/-- With credit for one byte of the file the session does not return, however long it runs. -/
theorem dispatch_endless : runSteps Session.step .new [.request .ohai demoDisk, .refresh [demoCreate]] =
      .ok demoReady ∧
    ∀ n, (demoReady.receive (.nom 1 0)).execute demoDisk n .nom = none := by
  refine ⟨rfl, fun n => ?_⟩
  match n with
  | 0 | 1 => rfl
  | n + 2 =>
    let t : Session := { demoReady with
      state := .dispatching
      nextEvent := some .sendChunk
      credit := 1
      granted := 1
      message := { FmqMsg.new with credit := 1 } }
    have hfirst : (demoReady.receive (.nom 1 0)).execute demoDisk (n + 2) .nom =
        t.execute demoDisk (n + 1) .sendChunk := rfl
    rw [hfirst, @execute_opened demoDisk t n [] demoCreate [1, 2] rfl rfl rfl rfl rfl rfl]
    exact execute_endless rfl ⟨rfl, rfl, rfl⟩ (by decide) (by decide) (n + 1)

end Session

end Filemq
