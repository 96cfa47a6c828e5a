import Mathlib.Data.List.Lex
import ZeroMQ.Filemq.Patch
import ZeroMQ.Foundation.Changes

/-!
# Differences of directories

`zdir_diff` goes through the files of two versions of a directory side by side, in the order `zdir_flatten` lists
them in, and compares the names. If both lists are ascending, as the code assumes, it makes for every name the patch
that it takes. They need not be where there are subdirectories, whose files come behind the others.

A patch is given by its operation and its file. Memory is taken not to run out.
-/

namespace Filemq.Zdir

open Czmq Foundation List

/-- What `zdir_diff` reads of a `zfile_t`. -/
structure Zfile where
  fullname : CString
  stable : Bool
  modified : ℤ
  cursize : ℤ

/-- The name, in the order of `strcmp`. -/
def Zfile.key (file : Zfile) : List ℕ := file.fullname.bytes.map UInt8.toNat

/-- The branch for `cmp > 0`. -/
def created (newFile : Zfile) : List (PatchOp × Zfile) := if newFile.stable then [(.create, newFile)] else []

/-- The branch for `cmp < 0`. -/
def deleted (oldFile : Zfile) : List (PatchOp × Zfile) := if oldFile.stable then [(.delete, oldFile)] else []

/-- The branch for `cmp == 0`. -/
def replaced (oldFile newFile : Zfile) : List (PatchOp × Zfile) :=
  if newFile.stable then
    if oldFile.stable then
      if newFile.modified ≠ oldFile.modified ∨ newFile.cursize ≠ oldFile.cursize then [(.create, newFile)] else []
    else [(.create, newFile)]
  else []

/-- The loop of `zdir_diff`, with the files from the two indices on. -/
def diff : List Zfile → List Zfile → List (PatchOp × Zfile)
  | [], [] => []
  | [], newFile :: news => created newFile ++ diff [] news
  | oldFile :: olds, [] => deleted oldFile ++ diff olds []
  | oldFile :: olds, newFile :: news =>
    if newFile.key < oldFile.key then created newFile ++ diff (oldFile :: olds) news
    else if oldFile.key < newFile.key then deleted oldFile ++ diff olds (newFile :: news)
    else replaced oldFile newFile ++ diff olds news
termination_by olds news => olds.length + news.length

/-- The names are ascending. -/
def Ascending (files : List Zfile) : Prop := files.Pairwise fun f g => f.key < g.key

/-- The file of a name. -/
def fileAt (k : List ℕ) (files : List Zfile) : Option Zfile := files.find? fun f => f.key = k

/-- The patches that a name takes, if it is that of these files. -/
def patchesOf : Option Zfile → Option Zfile → List (PatchOp × Zfile)
  | none, none => []
  | none, some newFile => created newFile
  | some oldFile, none => deleted oldFile
  | some oldFile, some newFile => replaced oldFile newFile

/-- The time and the size of the file of a name. -/
def contents (files : List Zfile) (k : List ℕ) : Option (ℤ × ℤ) :=
  (fileAt k files).map fun f => (f.modified, f.cursize)

/-- What a patch does to the contents. -/
def change : PatchOp × Zfile → Change (List ℕ) (ℤ × ℤ)
  | (.create, f) => ⟨f.key, some (f.modified, f.cursize)⟩
  | (.delete, f) => ⟨f.key, none⟩

variable {olds news : List Zfile} {f g : Zfile} {k : List ℕ}

lemma change_key (p : PatchOp × Zfile) : (change p).key = p.2.key := by
  obtain ⟨_ | _, f⟩ := p <;> rfl

lemma fileAt_cons : fileAt k (f :: olds) = if f.key = k then some f else fileAt k olds := by
  simp only [fileAt, find?_cons]
  split <;> simp_all

lemma fileAt_of_lt (h : ∀ g ∈ olds, f.key < g.key) : fileAt f.key olds = none := by
  rw [fileAt, find?_eq_none]
  exact fun g hg => by simpa using (h g hg).ne'

lemma filter_created : (created f).filter (fun p => p.2.key = k) = if f.key = k then created f else [] := by
  unfold created
  split <;> split <;> simp_all

lemma filter_deleted : (deleted f).filter (fun p => p.2.key = k) = if f.key = k then deleted f else [] := by
  unfold deleted
  split <;> split <;> simp_all

lemma filter_replaced : (replaced f g).filter (fun p => p.2.key = k) = if g.key = k then replaced f g else [] := by
  unfold replaced
  split_ifs <;> simp_all

lemma filter_diff (hold : Ascending olds) (hnew : Ascending news) (k : List ℕ) :
    (diff olds news).filter (fun p => p.2.key = k) = patchesOf (fileAt k olds) (fileAt k news) := by
  induction olds, news using diff.induct with
  | case1 => rw [diff]; rfl
  | case2 newFile news ih =>
    obtain ⟨hlt, htail⟩ := pairwise_cons.mp hnew
    rw [diff, filter_append, filter_created, ih hold htail, fileAt_cons]
    split
    · next hk => rw [← hk, fileAt_of_lt hlt]; exact append_nil _
    · rfl
  | case3 oldFile olds ih =>
    obtain ⟨hlt, htail⟩ := pairwise_cons.mp hold
    rw [diff, filter_append, filter_deleted, ih htail hnew, fileAt_cons]
    split
    · next hk => rw [← hk, fileAt_of_lt hlt]; exact append_nil _
    · rfl
  | case4 oldFile olds newFile news hcmp ih =>
    obtain ⟨hlt, htail⟩ := pairwise_cons.mp hnew
    have hfar : ∀ g ∈ oldFile :: olds, newFile.key < g.key :=
      forall_mem_cons.mpr ⟨hcmp, fun g hg => hcmp.trans ((pairwise_cons.mp hold).1 g hg)⟩
    rw [diff, if_pos hcmp, filter_append, filter_created, ih hold htail, fileAt_cons (f := newFile)]
    split
    · next hk => rw [← hk, fileAt_of_lt hlt, fileAt_of_lt hfar]; exact append_nil _
    · rfl
  | case5 oldFile olds newFile news hle hcmp ih =>
    obtain ⟨hlt, htail⟩ := pairwise_cons.mp hold
    have hfar : ∀ g ∈ newFile :: news, oldFile.key < g.key :=
      forall_mem_cons.mpr ⟨hcmp, fun g hg => hcmp.trans ((pairwise_cons.mp hnew).1 g hg)⟩
    rw [diff, if_neg hle, if_pos hcmp, filter_append, filter_deleted, ih htail hnew, fileAt_cons (f := oldFile)]
    split
    · next hk => rw [← hk, fileAt_of_lt hlt, fileAt_of_lt hfar]; exact append_nil _
    · rfl
  | case6 oldFile olds newFile news hle hge ih =>
    obtain ⟨hlt, htail⟩ := pairwise_cons.mp hold
    obtain ⟨hlt', htail'⟩ := pairwise_cons.mp hnew
    have heq : oldFile.key = newFile.key := le_antisymm (not_lt.mp hle) (not_lt.mp hge)
    rw [diff, if_neg hle, if_neg hge, filter_append, filter_replaced, ih htail htail', fileAt_cons, fileAt_cons, heq]
    split
    · next hk => rw [← hk, fileAt_of_lt hlt', ← heq, fileAt_of_lt hlt]; exact append_nil _
    · rfl

/-- What the patches of a name make of it, where the files are stable. -/
lemma apply_patchesOf {m : List ℕ → Option (ℤ × ℤ)} (hm : m k = contents olds k)
    (hold : ∀ f ∈ olds, f.stable) (hnew : ∀ f ∈ news, f.stable) :
    Change.applyAll m ((patchesOf (fileAt k olds) (fileAt k news)).map change) k = contents news k := by
  have hat : ∀ {l : List Zfile} {f}, (∀ f ∈ l, f.stable) → fileAt k l = some f → f.stable ∧ f.key = k :=
    fun hl hf => ⟨hl _ (mem_of_find?_eq_some hf), by simpa using find?_some hf⟩
  unfold contents at hm ⊢
  cases ho : fileAt k olds with
  | none => cases hn : fileAt k news with
    | none => simpa [patchesOf, ho] using hm
    | some n =>
      obtain ⟨hs, rfl⟩ := hat hnew hn
      simp [patchesOf, created, hs, change, Change.apply]
  | some o =>
    obtain ⟨hs, rfl⟩ := hat hold ho
    cases hn : fileAt o.key news with
    | none => simp [patchesOf, deleted, hs, change, Change.apply]
    | some n =>
      obtain ⟨hs', hkey⟩ := hat hnew hn
      by_cases hsame : n.modified ≠ o.modified ∨ n.cursize ≠ o.cursize
      · simp [patchesOf, replaced, hs, hs', hsame, change, Change.apply, hkey]
      · simp_all [patchesOf, replaced]

/-- **Differences.** If the files are listed in ascending order, the patches for a name are those it takes, which is
one at most, and if all files are stable the patches make of the old directory the new one. -/
theorem diff_spec (hold : Ascending olds) (hnew : Ascending news) :
    (∀ k, (diff olds news).filter (fun p => p.2.key = k) = patchesOf (fileAt k olds) (fileAt k news)) ∧
    ((∀ f ∈ olds ++ news, f.stable) →
      Change.applyAll (contents olds) ((diff olds news).map change) = contents news) := by
  refine ⟨filter_diff hold hnew, fun hstable => funext fun k => ?_⟩
  rw [forall_mem_append] at hstable
  rw [Change.applyAll_filter]
  simp only [change_key, filter_diff hold hnew]
  exact apply_patchesOf rfl hstable.1 hstable.2

/-- A file has been touched, and another one is new. -/
theorem diff_spec_touched :
    let file : Zfile := ⟨⟨[97], by decide⟩, true, 1, 0⟩
    let news : List Zfile := [{ file with modified := 2 }, ⟨⟨[98], by decide⟩, true, 2, 0⟩]
    Change.applyAll (contents [file]) ((diff [file] news).map change) = contents news :=
  (diff_spec (pairwise_singleton ..) (by simp [Ascending, Zfile.key]; decide)).2 (by simp)

end Filemq.Zdir
