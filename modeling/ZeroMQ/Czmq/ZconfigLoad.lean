import ZeroMQ.Czmq.ZconfigLine
import ZeroMQ.Czmq.ZconfigSave

/-!
# Saving and loading

A text is loaded line by line. A line that is longer than the buffer is cut, and only what is in the buffer is
counted as read, so that loading goes on behind the text. Otherwise the configuration that is loaded has what the
lines say. A line says at most one item, and every item needs a line of its own: so a saved configuration comes back
only if every line says what it is there for.
-/

namespace Czmq

open List Option Nat

namespace Zconfig

/-! ### Lines of a text -/

/-- The lines that a line with newlines is in a text. -/
def splitLines (line : List UInt8) : List (List UInt8) := line.splitOnP (· = newline)

lemma splitLines_cons (c : UInt8) (line : List UInt8) : splitLines (c :: line) =
    if c = newline then [] :: splitLines line else (splitLines line).modifyHead (c :: ·) := by
  rw [splitLines, splitOnP_cons_eq_if_modifyHead]
  by_cases hc : c = newline
  · rw [if_pos (decide_eq_true hc), if_pos hc, splitLines]
  · rw [if_neg (by simpa using hc), if_neg hc, splitLines]

lemma exists_splitLines (line : List UInt8) : ∃ first rest, splitLines line = first :: rest :=
  exists_cons_of_ne_nil (splitOnP_ne_nil _ line)

lemma textOf_splitLines (line : List UInt8) : textOf (splitLines line) = line ++ [newline] := by
  induction line with
  | nil => rfl
  | cons c line ih =>
    rw [splitLines_cons]
    by_cases hc : c = newline
    · rw [if_pos hc, textOf, flatMap_cons, ← textOf, ih, hc]
      rfl
    · obtain ⟨first, rest, hlines⟩ := exists_splitLines line
      rw [if_neg hc, hlines, modifyHead_cons, textOf, flatMap_cons, cons_append, cons_append,
        cons_append, ← ih, hlines, textOf, flatMap_cons]

lemma newline_not_mem_of_mem_splitLines {line l : List UInt8} (h : l ∈ splitLines line) : newline ∉ l := by
  induction line generalizing l with
  | nil =>
    obtain rfl := mem_singleton.mp h
    exact not_mem_nil
  | cons c line ih =>
    rw [splitLines_cons] at h
    by_cases hc : c = newline
    · rw [if_pos hc] at h
      rcases mem_cons.mp h with rfl | h
      · exact not_mem_nil
      · exact ih h
    · obtain ⟨first, rest, hlines⟩ := exists_splitLines line
      rw [if_neg hc, hlines, modifyHead_cons] at h
      rw [hlines] at ih
      rcases mem_cons.mp h with rfl | h
      · rw [mem_cons, not_or]
        exact ⟨Ne.symm hc, ih mem_cons_self⟩
      · exact ih (mem_cons_of_mem _ h)

lemma mem_of_mem_splitLines {line l : List UInt8} (h : l ∈ splitLines line) {c : UInt8} (hc : c ∈ l) : c ∈ line := by
  have htext : c ∈ textOf (splitLines line) := mem_flatMap.mpr ⟨l, h, mem_append_left _ hc⟩
  rw [textOf_splitLines, mem_append, mem_singleton] at htext
  exact htext.resolve_right fun hn => newline_not_mem_of_mem_splitLines h (hn ▸ hc)

/-- Lines that are loaded one after the other. -/
def loadLines (self : Zconfig) (ls : List (List UInt8)) : Option Zconfig := ls.foldlM loadLine self

/-- A text is loaded as its lines are, if they all fit into the buffer. What has been counted too little for longer
lines is there at the end, behind the text. -/
lemma loadLoop_textOf {ls : List (List UInt8)} (hls : ∀ l ∈ ls, newline ∉ l) {fuel extra : ℕ}
    (hfuel : (textOf ls).length + extra ≤ fuel) (self self' : Zconfig) :
    loadLoop fuel (textOf ls) ((textOf ls).length + extra) self = .ok (some self') ↔
      extra = 0 ∧ (∀ l ∈ ls, l.length ≤ 1024) ∧ self.loadLines ls = some self' := by
  induction ls generalizing fuel extra self with
  | nil =>
    have hlines : self.loadLines [] = some self' ↔ self = self' := some_inj
    have hshort : ∀ l ∈ ([] : List (List UInt8)), l.length ≤ 1024 := fun l hl => (by cases hl)
    rw [hlines, and_iff_right hshort]
    cases fuel with
    | zero =>
      obtain rfl : extra = 0 := Nat.le_zero.mp ((Nat.le_add_left _ _).trans hfuel)
      simp [loadLoop, textOf]
    | succ fuel => by_cases hextra : extra = 0 <;> simp [loadLoop, textOf, hextra, Nat.pos_iff_ne_zero]
  | cons l ls ih =>
    have htext : textOf (l :: ls) = l ++ newline :: textOf ls := by
      rw [textOf, flatMap_cons, append_assoc]
      rfl
    have hlen : (textOf (l :: ls)).length = l.length + 1 + (textOf ls).length := by
      rw [htext, length_append, length_cons]
      omega
    cases fuel with
    | zero => omega
    | succ fuel =>
      have hstops : Stops (· ≠ newline) (newline :: textOf ls) := Stops.cons (by decide) _
      have hline : ((textOf (l :: ls)).take ((textOf (l :: ls)).length + extra)).takeWhile (· ≠ newline) = l := by
        rw [take_of_length_le (Nat.le_add_right _ _), htext]
        exact hstops.takeWhile_append fun c hc => decide_eq_true fun hn => hls l mem_cons_self (hn ▸ hc)
      have heoln : l.length < min ((textOf (l :: ls)).length + extra) (textOf (l :: ls)).length := by omega
      have hdrop : (textOf (l :: ls)).drop (l.length + 1) = textOf ls := by
        rw [htext, append_cons, drop_left' (by simp)]
      have hremaining : (textOf (l :: ls)).length + extra - (min l.length 1024 + 1) =
          (textOf ls).length + (extra + (l.length - min l.length 1024)) := by omega
      rw [loadLoop, if_neg (by omega)]
      rw [hline, if_neg fun h => h.1 (decide_eq_true heoln)]
      simp only [decide_eq_true heoln, if_true, hdrop, hremaining]
      have hrest := fun self => @ih (fun l hl => hls l (mem_cons_of_mem _ hl)) fuel
        (extra + (l.length - min l.length 1024)) (by omega) self
      by_cases hshort : l.length ≤ 1024
      · have hmin : min l.length 1024 = l.length := Nat.min_eq_left hshort
        rw [hmin, Nat.sub_self, Nat.add_zero] at hrest ⊢
        rw [take_length, loadLines, foldlM_cons, forall_mem_cons, and_iff_right hshort]
        cases hload : self.loadLine l with
        | none => exact iff_of_false (by simp) fun h => (by cases h.2.2)
        | some self1 => exact hrest self1
      · refine iff_of_false (fun h => ?_) fun h => hshort (h.2.1 l mem_cons_self)
        split at h
        · cases h
        · next self1 hload =>
          have hzero := ((hrest self1).mp h).1
          omega

/-! ### What lines say -/

/-- The items that lines say, with their levels. -/
def said : List (List UInt8) → Option (List (ℕ × ConfigItem))
  | [] => some []
  | l :: ls => (parseLine (curLine l)).bind fun item => (said ls).map fun items => item.toList ++ items

lemma said_append (a b : List (List UInt8)) :
    said (a ++ b) = (said a).bind fun items => (said b).map fun rest => items ++ rest := by
  induction a with
  | nil => cases h : said b <;> simp [said, h]
  | cons l a ih =>
    rw [cons_append, said, said, ih]
    cases parseLine (curLine l) with
    | none => rfl
    | some item => cases said a <;> cases said b <;> simp

lemma said_eq_nil_iff (ls : List (List UInt8)) :
    said ls = some [] ↔ ∀ l ∈ ls, parseLine (curLine l) = some none := by
  induction ls with
  | nil => exact iff_of_true rfl fun l hl => (by cases hl)
  | cons l ls ih =>
    rw [forall_mem_cons, ← ih, said]
    cases parseLine (curLine l) with
    | none => exact iff_of_false (by simp) fun h => (by cases h.1)
    | some item => cases item <;> cases said ls <;> simp

lemma name_of_said {ls : List (List UInt8)} {items : List (ℕ × ConfigItem)} (h : said ls = some items)
    {e : ℕ × ConfigItem} (he : e ∈ items) : ∃ name : CString, e.2.name = some name ∧ name.bytes ≠ [] := by
  induction ls generalizing items with
  | nil =>
    obtain rfl := some.inj h
    cases he
  | cons l ls ih =>
    obtain ⟨item, hitem, h⟩ := bind_eq_some_iff.mp h
    obtain ⟨rest, hrest, rfl⟩ := map_eq_some_iff.mp h
    rcases mem_append.mp he with he | he
    · rw [mem_toList.mp he] at hitem
      exact name_of_parseLine hitem
    · exact ih hrest he

lemma child_loadLine (self : Zconfig) (line : List UInt8) : (self.loadLine line).map child =
    (parseLine (curLine line)).bind fun item => Forest.build item.toList self.child := by
  rw [loadLine]
  have hcomment : (if (curLine line).head? = some hashSign then
      { self with self := { self.self with comments := self.self.comments ++ [.ofBytes (curLine line).tail] } }
      else self).child = self.child := by split <;> rfl
  cases parseLine (curLine line) with
  | none => rfl
  | some item =>
    cases item with
    | none => exact congrArg some hcomment
    | some e =>
      rw [hcomment, Option.bind_some, Option.toList_some, Forest.build, Option.map_map]
      cases self.child.attach e.2 e.1 <;> rfl

lemma child_loadLines (self : Zconfig) (ls : List (List UInt8)) :
    (self.loadLines ls).map child = (said ls).bind fun items => Forest.build items self.child := by
  induction ls generalizing self with
  | nil => rfl
  | cons l ls ih =>
    have hload : (self.loadLines (l :: ls)).map child =
        ((self.loadLine l).map child).bind fun t => (said ls).bind fun items => Forest.build items t := by
      rw [loadLines, foldlM_cons]
      cases self.loadLine l with
      | none => rfl
      | some self1 => exact ih self1
    rw [hload, child_loadLine, said]
    cases parseLine (curLine l) with
    | none => rfl
    | some item =>
      rw [bind_some, bind_some]
      cases said ls with
      | none => cases Forest.build item.toList self.child <;> rfl
      | some items => exact (Forest.build_append item.toList items self.child).symm

end Zconfig

end Czmq
