import ZeroMQ.Filemq.Client
import ZeroMQ.Filemq.Dispatch

/-!
# The inbox of the FileMQ client

The client writes the chunks it gets at their offsets into a file of its inbox, and closes the file when an empty
chunk comes. The name of the file is the one it is told without the path of a subscription.

A file that is there is opened for update and not cut: what is behind the last chunk stays. The search for the
subscription never leaves the first one, and the name of a file that ends in `.ln` and has some text loses this
ending, as if the file were a symbolic link.
-/

namespace Filemq

open Czmq Foundation Function Except List

/-! ### Files -/

/-- The files of the disk, by name. -/
abbrev Files := CString → Option (List UInt8)

/-- `.ln`, the ending of a symbolic link. -/
def linkEnding : List UInt8 := [46, 108, 110]

/-- What a file has after `fseek` and `fwrite`; what was not there before is zero. -/
def writeAt (contents : List UInt8) (offset : ℕ) (chunk : List UInt8) : List UInt8 :=
  contents.take offset ++ List.replicate (offset - contents.length) 0 ++ chunk ++
    contents.drop (offset + chunk.length)

/-- The name `zfile_new` gives a file. -/
def zfileName (files : Files) (name : CString) : CString where
  bytes :=
    if 3 < name.bytes.length ∧ linkEnding.isSuffixOf name.bytes ∧ (files name).getD [] ≠ [] then
      name.bytes.take (name.bytes.length - 3)
    else name.bytes
  noZero := by
    split
    · exact fun h => name.noZero (List.mem_of_mem_take h)
    · exact name.noZero

/-- What `zfile_output` does if the file can be written. -/
def zfileOutput (files : Files) (name : CString) : Files :=
  if (files name).isSome then files else update files name (some [])

/-- `zfile_write`, if there is something in the chunk. -/
def Files.write (files : Files) (name : CString) (m : Cheezburger) : Files :=
  if 0 < m.chunk.length then update files name (some (writeAt ((files name).getD []) m.offset m.chunk)) else files

namespace Client

/-- `process_the_patch` with the files; `writable` says whether `zfile_output` succeeds. -/
def applyPatch (writable : Writable) (c : Client) (files : Files) (m : Cheezburger) :
    Except ClientFault (Client × Files) :=
  match m.filename with
  | none => .ok (c, files)
  | some filename =>
    if isAbsolute filename then do
      let name ← c.target filename
      if m.operation = fileCreate then
        match c.file with
        | some open_ => .ok (c.writeChunk open_ m.chunk, files.write open_ m)
        | none =>
          if writable (zfileName files name) then
            .ok (c.writeChunk (zfileName files name) m.chunk,
              (zfileOutput files (zfileName files name)).write (zfileName files name) m)
          else .ok (c, files)
      else if m.operation = fileDelete then .ok (c, update files name none)
      else .ok (c, files)
    else .ok (c, files)

/-- A step of a run over messages. -/
def applyStep (writable : Writable) (s : Client × Files) (m : Cheezburger) : Except ClientFault (Client × Files) :=
  s.1.applyPatch writable s.2 m

/-! ### One file -/

/-- The name a file should have in the inbox. -/
def Strips (subs : List CString) (filename name : CString) : Prop :=
  (∃ path ∈ subs, startsWith filename path ∧ name = dropString path.bytes.length filename) ∨
    (∀ path ∈ subs, ¬startsWith filename path) ∧ name = filename

/-- The filename without the path of the first subscription. -/
def strippedName (filename : CString) : List CString → CString
  | [] => filename
  | path :: _ => dropString path.bytes.length filename

lemma matchSubscription_eq {filename : CString} {subs : List CString}
    (h : ∀ first ∈ subs.head?, startsWith filename first) :
    matchSubscription filename subs = .ok (strippedName filename subs) ∧
      Strips subs filename (strippedName filename subs) := by
  cases subs with
  | nil => exact ⟨rfl, .inr ⟨fun _ hpath => absurd hpath not_mem_nil, rfl⟩⟩
  | cons first rest =>
    have hfirst : startsWith filename first := h first rfl
    exact ⟨if_pos hfirst, .inl ⟨first, mem_cons_self, hfirst, rfl⟩⟩

lemma matchSubscription_error {filename : CString} {subs : List CString}
    (h : ¬∀ first ∈ subs.head?, startsWith filename first) :
    matchSubscription filename subs = .error .endless := by
  cases subs with
  | nil => exact absurd (fun _ hfirst => by cases hfirst) h
  | cons first rest =>
    refine if_neg fun hfirst => h fun path hpath => ?_
    rw [← Option.some.inj hpath]
    exact hfirst

section File

variable (writable : Writable) {c : Client} {files : Files} {inbox filename name : CString} {m : Cheezburger}
  {contents pre old : List UInt8} {offset : ℕ} {ms : List Cheezburger}

lemma writeAt_append (hpre : pre.length = offset) (chunk : List UInt8) :
    writeAt (pre ++ old.drop offset) offset chunk = (pre ++ chunk) ++ old.drop (offset + chunk.length) := by
  subst hpre
  simp [writeAt, drop_append, drop_drop]

lemma writeChunk_open {chunk : List UInt8} (h : 0 < chunk.length) :
    (c.writeChunk name chunk).file = some name ∧ (c.writeChunk name chunk).target filename = c.target filename := by
  obtain ⟨credit, heq⟩ : ∃ credit, c.writeChunk name chunk = { c with file := some name, credit } :=
    ⟨_, if_pos h⟩
  rw [heq]
  exact ⟨rfl, rfl⟩

/-- A message for an open file. -/
lemma applyPatch_open (hfilename : m.filename = some filename) (hop : m.operation = fileCreate)
    (habsolute : isAbsolute filename) {target : CString} (htarget : c.target filename = .ok target)
    (hfile : c.file = some name) :
    c.applyPatch writable files m = .ok (c.writeChunk name m.chunk, files.write name m) := by
  simp only [applyPatch, hfilename, if_pos habsolute, htarget, hfile, if_pos hop]
  rfl

lemma applyPatch_closed (hfilename : m.filename = some filename) (hop : m.operation = fileCreate)
    (habsolute : isAbsolute filename) {target : CString} (htarget : c.target filename = .ok target)
    (hfile : c.file = none) (hname : zfileName files target = name) :
    c.applyPatch writable files m = if writable name then
      ({ c with file := some name } : Client).applyPatch writable (zfileOutput files name) m else .ok (c, files) := by
  have hopened := @applyPatch_open writable { c with file := some name } (zfileOutput files name) filename name m
    hfilename hop habsolute target htarget rfl
  subst hname
  rw [hopened]
  simp only [applyPatch, hfilename, if_pos habsolute, htarget, hfile]
  change (if m.operation = fileCreate then _ else _) = _
  rw [if_pos hop]
  rfl

/-- **The chunks of an open file.** -/
theorem chunks_written (hms : Chunks filename offset contents ms) (habsolute : isAbsolute filename)
    {target : CString} (htarget : c.target filename = .ok target) (hfile : c.file = some name)
    (hfiles : files name = some (pre ++ old.drop offset)) (hpre : pre.length = offset) :
    ∃ c', runSteps (applyStep writable) (c, files) ms =
        .ok (c', update files name (some ((pre ++ contents) ++ old.drop (offset + contents.length)))) ∧
      c'.target filename = .ok target ∧ c'.file = some name := by
  induction hms generalizing c files pre with
  | nil offset =>
    refine ⟨c, ?_, htarget, hfile⟩
    rw [append_nil, length_nil, add_zero, ← hfiles, update_eq_self]
    rfl
  | @cons offset chunk rest m ms hcarries hne hms ih =>
    have hlong : 0 < m.chunk.length := by rw [hcarries.chunk]; exact length_pos_iff.mpr hne
    have hwrite : files.write name m =
        update files name (some ((pre ++ chunk) ++ old.drop (offset + chunk.length))) := by
      rw [Files.write, if_pos hlong, hfiles, hcarries.offset, hcarries.chunk, Option.getD_some, writeAt_append hpre]
    have hstep : applyStep writable (c, files) m = .ok (c.writeChunk name m.chunk, files.write name m) :=
      applyPatch_open writable hcarries.filename hcarries.operation habsolute htarget hfile
    obtain ⟨hstill, hsame⟩ := @writeChunk_open c filename name m.chunk hlong
    have hnow : files.write name m name = some ((pre ++ chunk) ++ old.drop (offset + chunk.length)) := by
      rw [hwrite, update_self]
    obtain ⟨c', hrun, hrest⟩ := ih (hsame.trans htarget) hstill hnow (by rw [length_append, hpre])
    refine ⟨c', ?_, hrest⟩
    rw [runSteps_cons_ok hstep, hrun, hwrite, update_idem, append_assoc pre, length_append, add_assoc]

lemma chunks_create (hms : Chunks filename offset contents ms) (x : Cheezburger) (hx : x ∈ ms) :
    x.filename = some filename ∧ x.operation = fileCreate := by
  induction hms with
  | nil offset => exact absurd hx not_mem_nil
  | cons hcarries _ _ ih =>
    rcases mem_cons.mp hx with rfl | hx
    · exact ⟨hcarries.filename, hcarries.operation⟩
    · exact ih hx

/-- **The file after its last message.** If it can be written, it begins with its contents, and what was behind
them before is still there. -/
theorem file_written (hms : Chunks filename 0 contents ms) (hm : Carries filename contents.length [] m)
    (habsolute : isAbsolute filename) {target : CString} (htarget : c.target filename = .ok target)
    (hfile : c.file = none) (hname : zfileName files target = name) :
    ∃ c', runSteps (applyStep writable) (c, files) (ms ++ [m]) = .ok (c', if writable name then
      update files name (some (contents ++ ((files name).getD []).drop contents.length)) else files) := by
  have hall : ∀ x ∈ ms ++ [m], x.filename = some filename ∧ x.operation = fileCreate := fun x hx => by
    rcases mem_append.mp hx with hx | hx
    · exact chunks_create hms x hx
    · rw [mem_singleton.mp hx]
      exact ⟨hm.filename, hm.operation⟩
  have hstep (x) (hx : x ∈ ms ++ [m]) := applyPatch_closed writable (hall x hx).1 (hall x hx).2 habsolute
    htarget hfile hname
  by_cases hwritable : writable name = true
  · simp only [if_pos hwritable] at hstep ⊢
    have hopened : zfileOutput files name name = some ([] ++ ((files name).getD []).drop 0) := by
      cases hold : files name with
      | none => simp [zfileOutput, hold]
      | some old => simp [zfileOutput, hold]
    have hupdate (x : Option (List UInt8)) : update (zfileOutput files name) name x = update files name x := by
      rw [zfileOutput]
      split
      · rfl
      · rw [update_idem]
    obtain ⟨c', hrun, htarget', hfile'⟩ := chunks_written writable
      (c := { c with file := some name }) hms habsolute htarget rfl hopened rfl
    rw [hupdate, nil_append, zero_add] at hrun
    have hlast : applyStep writable (c', update files name
        (some (contents ++ ((files name).getD []).drop contents.length))) m = _ :=
      applyPatch_open writable hm.filename hm.operation habsolute htarget' hfile'
    rw [Files.write, if_neg (by simp [hm.chunk])] at hlast
    refine ⟨_, Eq.trans ?_ ((runSteps_append hrun [m]).trans (runSteps_cons_ok hlast []))⟩
    -- The first message opens the file.
    cases hmessages : ms ++ [m] with
    | nil => simp at hmessages
    | cons x rest =>
      rw [runSteps, runSteps, applyStep, applyStep, hstep x (hmessages ▸ mem_cons_self)]
  · simp only [if_neg hwritable] at hstep ⊢
    refine ⟨c, ?_⟩
    generalize ms ++ [m] = messages at hstep
    induction messages with
    | nil => rfl
    | cons x rest ih =>
      have hstay : applyStep writable (c, files) x = .ok (c, files) := hstep x mem_cons_self
      rw [runSteps_cons_ok hstay]
      exact ih fun y hy => hstep y (mem_cons_of_mem _ hy)

end File

/-- **Files in the inbox.** The messages of a file are all processed, its name loses the path of a subscription it
begins with, and in the end the file has exactly the contents that were sent, if and only if the path of the first
subscription is one the name begins with, and either the file can be written, is not taken for a link and was not
longer than the contents before, or it is not written to and has the contents already. -/
theorem inbox_file_iff {writable : Writable} {c : Client} {files : Files} {inbox filename : CString}
    {contents : List UInt8} {ms : List Cheezburger} {m : Cheezburger} (hinbox : c.inbox = some inbox)
    (hfile : c.file = none) (habsolute : isAbsolute filename) (hms : Chunks filename 0 contents ms)
    (hm : Carries filename contents.length [] m) {target : CString}
    (htarget : target = joinPath inbox (dropSlash (strippedName filename c.subs))) :
    (∃ name c' files', matchSubscription filename c.subs = .ok name ∧ Strips c.subs filename name ∧
      runSteps (applyStep writable) (c, files) (ms ++ [m]) = .ok (c', files') ∧
      files' (joinPath inbox (dropSlash name)) = some contents) ↔
    (∀ first ∈ c.subs.head?, startsWith filename first) ∧
      (writable (zfileName files target) = true ∧ zfileName files target = target ∧
          ((files target).getD []).length ≤ contents.length ∨
        (writable (zfileName files target) = false ∨ zfileName files target ≠ target) ∧
          files target = some contents) := by
  by_cases hfirst : ∀ first ∈ c.subs.head?, startsWith filename first
  · rw [and_iff_right hfirst]
    obtain ⟨hmatch, hstrips⟩ := matchSubscription_eq hfirst
    have hok : c.target filename = .ok target := by
      rw [Client.target, hmatch, hinbox, htarget]
      rfl
    obtain ⟨c', hrun⟩ := file_written writable hms hm habsolute hok hfile rfl
    have hiff : (∃ name c' files', matchSubscription filename c.subs = .ok name ∧ Strips c.subs filename name ∧
        runSteps (applyStep writable) (c, files) (ms ++ [m]) = .ok (c', files') ∧
        files' (joinPath inbox (dropSlash name)) = some contents) ↔
        (if writable (zfileName files target) = true then update files (zfileName files target)
          (some (contents ++ ((files (zfileName files target)).getD []).drop contents.length)) else files) target =
            some contents := by
      constructor
      · rintro ⟨name, c2, files2, hname, -, hrun2, hcontents⟩
        obtain rfl := ok.inj (hmatch.symm.trans hname)
        obtain ⟨-, rfl⟩ := Prod.mk.inj (ok.inj (hrun.symm.trans hrun2))
        rw [← htarget] at hcontents
        exact hcontents
      · intro hcontents
        refine ⟨_, c', _, hmatch, hstrips, hrun, ?_⟩
        rw [← htarget]
        exact hcontents
    rw [hiff]
    by_cases hwritable : writable (zfileName files target) = true
    · by_cases hname : zfileName files target = target
      · rw [hname] at hwritable ⊢
        simp [hwritable]
      · simp [hwritable, hname, update_of_ne (Ne.symm hname)]
    · simp [hwritable]
  · refine iff_of_false ?_ fun h => hfirst h.1
    rintro ⟨name, -, -, hname, -⟩
    rw [matchSubscription_error hfirst] at hname
    cases hname

/-- The path `/p`, and the file `/p/a`. -/
def demoSub : CString := .ofBytes [47, 112]

def demoName : CString := joinPath demoSub (.ofBytes [97])

/-- A client with the inbox `/i`. -/
def demoClient (subs : List CString) : Client := { Client.new with inbox := some ⟨[47, 105], by decide⟩, subs }

/-- The messages for the file with two bytes. -/
def demoChunks : List Cheezburger :=
  [⟨0, fileCreate, some demoName, 0, false, [1, 2]⟩, ⟨1, fileCreate, some demoName, 2, true, []⟩]

/-- The file had one byte. -/
theorem inbox_file_longer : ∃ name c' files', matchSubscription demoName (demoClient [demoSub]).subs = .ok name ∧
    Strips (demoClient [demoSub]).subs demoName name ∧
    runSteps (applyStep fun _ => true) (demoClient [demoSub], fun _ => some [9]) demoChunks = .ok (c', files') ∧
    files' (joinPath ⟨[47, 105], by decide⟩ (dropSlash name)) = some [1, 2] := by
  have hchunks : Chunks demoName 0 ([1, 2] ++ []) (demoChunks.take 1) :=
    .cons ⟨rfl, rfl, rfl, rfl, rfl⟩ (cons_ne_nil _ _) (.nil _)
  refine (inbox_file_iff rfl rfl (by decide) hchunks ⟨rfl, rfl, rfl, rfl, rfl⟩ rfl).mpr
    ⟨fun first hfirst => ?_, .inl ⟨rfl, ?_, by decide⟩⟩
  · rw [← Option.some.inj hfirst]
    decide
  · decide

/-- The file had three bytes, and the last one is still there; and a client with another subscription before the one
that fits never gets out of the loop. -/
theorem inbox_file_fails :
    (∃ s, runSteps (applyStep fun _ => true) (demoClient [demoSub], fun _ => some [7, 8, 9]) demoChunks = .ok s ∧
      s.2 ⟨[47, 105, 47, 97], by decide⟩ = some [1, 2, 9]) ∧
    runSteps (applyStep fun _ => true) (demoClient [⟨[47, 113], by decide⟩, demoSub], fun _ => none) demoChunks =
      .error .endless :=
  ⟨okAnd.exists (by decide +kernel), rfl⟩

end Client

end Filemq
