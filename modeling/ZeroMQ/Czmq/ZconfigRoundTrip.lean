import Mathlib.Algebra.Ring.Nat
import ZeroMQ.Czmq.ZconfigLoad

/-!
# Which configurations come back

A configuration with names that can be read, and with values on one line, is saved and loaded. It comes back with
its shape, its names and its values exactly if no name is empty, there is no quote in a value, the lines of comments
say nothing, no line is longer than the buffer and the size of the text is that of an `int`.
-/

namespace Czmq

open List Option Nat

namespace Zconfig

/-! ### The statement -/

/-- A configuration is saved in a chunk of exactly the size that is written, and what is loaded from the chunk is the
same tree of names and values; the own name and value of the root are not saved. An item without a value comes back
with the empty one. -/
def RoundTrips (t : Zconfig) : Prop :=
  ∃ chunk self : _, t.chunkSave = .ok chunk ∧ chunk.data.length = chunk.maxSize ∧
    chunkLoad chunk = .ok (some self) ∧ self.child = t.child.map loaded

/-- Names can be read, and values have one line. -/
structure Printable (t : Zconfig) : Prop where
  names : ∀ e ∈ t.child.preorder 0, ∃ name, e.2.name = some name ∧ IsName name
  values : ∀ e ∈ t.child.preorder 0, ∀ value ∈ e.2.value, newline ∉ value.bytes

/-- The length of what is printed as the name. -/
def nameLength (item : ConfigItem) : ℕ := (item.name.map fun name => name.bytes.length).getD 9

/-- The length of what is printed as the value, with the equals sign and the quotes. -/
def valueLength (item : ConfigItem) : ℕ := (item.value.map fun value => value.bytes.length + 5).getD 0

/-- The length of the line of an item. -/
def itemLength (e : ℕ × ConfigItem) : ℕ := e.1 * 4 + nameLength e.2 + valueLength e.2

/-- The size of the comments of an item, with the empty line. -/
def commentsSize (item : ConfigItem) : ℕ :=
  (item.comments.map fun comment => comment.bytes.length + 2).sum + if item.comments = [] then 0 else 1

/-- The size of the text. -/
def savedSize (t : Zconfig) : ℕ :=
  commentsSize t.self + ((t.child.preorder 0).map fun e => commentsSize e.2 + (itemLength e + 1)).sum

/-- The lines of the comments of an item fit into the buffer and say nothing. -/
def CommentsSilent (item : ConfigItem) : Prop :=
  ∀ comment ∈ item.comments, ∀ l ∈ splitLines (commentLine comment), Silent l ∧ l.length ≤ 1024

instance (item : ConfigItem) : Decidable (CommentsSilent item) :=
  inferInstanceAs (Decidable (∀ comment ∈ item.comments, _))

/-- What has to hold of a configuration so that it comes back. -/
structure Storable (t : Zconfig) : Prop where
  names : ∀ e ∈ t.child.preorder 0, e.2.name ≠ some ⟨[], by decide⟩
  values : ∀ e ∈ t.child.preorder 0, ∀ value ∈ e.2.value, quote ∉ value.bytes
  short : ∀ e ∈ t.child.preorder 0, itemLength e ≤ 1024
  own : CommentsSilent t.self
  comments : ∀ e ∈ t.child.preorder 0, CommentsSilent e.2
  size : t.savedSize < 2 ^ 31

/-! ### The text -/

/-- The lines of the comments of an item in a text. -/
def commentLines (item : ConfigItem) : List (List UInt8) :=
  (item.comments.flatMap fun comment => splitLines (commentLine comment)) ++
    if item.comments = [] then [] else [[]]

/-- The lines of an item in a text. -/
def itemLines (e : ℕ × ConfigItem) : List (List UInt8) := commentLines e.2 ++ [itemLine e.2 (e.1 + 1)]

/-- The lines in the text of a configuration. -/
def textLines (t : Zconfig) : List (List UInt8) := commentLines t.self ++ (t.child.preorder 0).flatMap itemLines

lemma textOf_commentLines (item : ConfigItem) : textOf (commentLines item) =
    textOf (item.comments.map commentLine ++ if item.comments = [] then [] else [[]]) := by
  have hlines : ∀ comments : List CString, textOf (comments.flatMap fun comment => splitLines (commentLine comment)) =
      textOf (comments.map commentLine) := by
    intro comments
    induction comments with
    | nil => rfl
    | cons comment rest ih =>
      rw [flatMap_cons, map_cons, textOf_append, textOf_splitLines, ih]
      rfl
  rw [commentLines, textOf_append, hlines, ← textOf_append]

lemma textOf_itemLines (e : ℕ × ConfigItem) : textOf (itemLines e) = textOf (entryLines (e.1 + 1, e.2)) := by
  rw [itemLines, textOf_append, textOf_commentLines, ← textOf_append]
  rfl

lemma textOf_textLines (t : Zconfig) : textOf t.textLines = textOf t.lines := by
  have hitems : ∀ es : List (ℕ × ConfigItem),
      textOf (es.flatMap itemLines) =
        textOf ((es.map fun e => (e.1 + 1, e.2)).flatMap entryLines) := by
    intro es
    induction es with
    | nil => rfl
    | cons e es ih =>
      rw [flatMap_cons, map_cons, flatMap_cons, textOf_append, textOf_append, ih, textOf_itemLines]
  rw [textLines, lines, textOf_append, textOf_append, hitems, ← Forest.preorder_succ, textOf_commentLines, entryLines]
  rw [if_neg (lt_irrefl 0), append_nil]

lemma length_itemLine (e : ℕ × ConfigItem) : (itemLine e.2 (e.1 + 1)).length = itemLength e := by
  obtain ⟨level, name, value, comments⟩ := e
  cases name <;> cases value <;> simp [itemLine, itemLength, nameLength, valueLength] <;> omega

lemma length_textOf_commentLines (item : ConfigItem) : (textOf (commentLines item)).length = commentsSize item := by
  have hlength : ∀ comments : List CString, (textOf (comments.map commentLine)).length =
      (comments.map fun comment => comment.bytes.length + 2).sum := by
    intro comments
    induction comments with
    | nil => rfl
    | cons comment rest ih =>
      rw [map_cons, map_cons, sum_cons, ← ih, textOf, flatMap_cons, length_append]
      simp [commentLine, textOf]
  rw [textOf_commentLines, textOf_append, length_append, hlength, commentsSize]
  split <;> rfl

lemma length_textOf_lines (t : Zconfig) : (textOf t.lines).length = t.savedSize := by
  have hitems : ∀ es : List (ℕ × ConfigItem),
      (textOf (es.flatMap itemLines)).length =
        (es.map fun e => commentsSize e.2 + (itemLength e + 1)).sum := by
    intro es
    induction es with
    | nil => rfl
    | cons e es ih =>
      rw [flatMap_cons, map_cons, sum_cons, itemLines, textOf_append, textOf_append, textOf_singleton,
        length_append, length_append, length_append, length_textOf_commentLines, length_itemLine, ih]
      rfl
  rw [← textOf_textLines, textLines, textOf_append, length_append, length_textOf_commentLines, hitems, savedSize]

/-! ### The lines -/

lemma newline_not_mem_itemLine {item : ConfigItem} {name : CString} (h : item.name = some name) (hname : IsName name)
    (hvalue : ∀ value ∈ item.value, newline ∉ value.bytes) (level : ℕ) :
    newline ∉ itemLine item (level + 1) := by
  rw [itemLine_eq h, mem_append, mem_append, valueText]
  rintro (hn | hn | hn)
  · exact absurd (eq_of_mem_replicate hn) (by decide)
  · have hchar := hname.nameChars newline hn
    rw [isNamechar_newline] at hchar
    cases hchar
  · cases hv : item.value with
    | none =>
      rw [hv] at hn
      cases hn
    | some value =>
      rw [hv] at hn hvalue
      exact hvalue value rfl (by simpa [quoted, newline, space, equals, quote] using hn)

lemma newline_not_mem_commentLines {item : ConfigItem} {l : List UInt8} (h : l ∈ commentLines item) :
    newline ∉ l := by
  rcases mem_append.mp h with h | h
  · obtain ⟨comment, -, hl⟩ := mem_flatMap.mp h
    exact newline_not_mem_of_mem_splitLines hl
  split at h
  · cases h
  · rw [mem_singleton.mp h]
    exact not_mem_nil

variable {t : Zconfig}

lemma Printable.newline_not_mem (h : t.Printable) : ∀ l ∈ t.textLines, newline ∉ l := by
  intro l hl
  rcases mem_append.mp hl with hl | hl
  · exact newline_not_mem_commentLines hl
  obtain ⟨e, he, hl⟩ := mem_flatMap.mp hl
  rcases mem_append.mp hl with hl | hl
  · exact newline_not_mem_commentLines hl
  · obtain ⟨name, hname, hchars⟩ := h.names e he
    rw [mem_singleton.mp hl]
    exact newline_not_mem_itemLine hname hchars (h.values e he) e.1

lemma said_commentLines_iff (item : ConfigItem) : said (commentLines item) = some [] ↔
    ∀ comment ∈ item.comments, ∀ l ∈ splitLines (commentLine comment), Silent l := by
  have hzero : ∀ comment : CString, ∀ l ∈ splitLines (commentLine comment), 0 ∉ l := by
    intro comment l hl h0
    rcases mem_cons.mp (mem_of_mem_splitLines hl h0) with h0 | h0
    · cases h0
    · exact comment.noZero h0
  rw [said_eq_nil_iff]
  constructor
  · intro h comment hcomment l hl
    rw [← parseLine_curLine_eq_some_none_iff (hzero comment l hl)]
    exact h l (mem_append_left _ (mem_flatMap.mpr ⟨comment, hcomment, hl⟩))
  · intro h l hl
    rcases mem_append.mp hl with hl | hl
    · obtain ⟨comment, hcomment, hl⟩ := mem_flatMap.mp hl
      exact (parseLine_curLine_eq_some_none_iff (hzero comment l hl)).mpr (h comment hcomment l hl)
    split at hl
    · cases hl
    · rw [mem_singleton.mp hl]
      rfl

lemma said_items_iff {es : List (ℕ × ConfigItem)}
    (hes : ∀ e ∈ es, ∃ name : CString, e.2.name = some name ∧ IsName name ∧ name.bytes ≠ []) :
    (∀ items, said (es.flatMap itemLines) = some items →
      es.length ≤ items.length) ∧
    (said (es.flatMap itemLines) =
      some (es.map fun e => (e.1, loaded e.2)) ↔
      ∀ e ∈ es, said (commentLines e.2) = some [] ∧ ∀ value ∈ e.2.value, quote ∉ value.bytes) := by
  induction es with
  | nil => exact ⟨fun items _ => zero_le _, iff_of_true rfl fun e he => (by cases he)⟩
  | cons e es ih =>
    obtain ⟨ihLength, ihEq⟩ := ih fun e he => hes e (mem_cons_of_mem _ he)
    obtain ⟨name, hname, hchars, hne⟩ := hes e mem_cons_self
    have hitem := parseLine_itemLine_iff hname hchars hne e.1
    have hsome := parseLine_itemLine_ne hname hchars hne e.1
    rw [flatMap_cons, itemLines, said_append, said_append, forall_mem_cons, ← ihEq, map_cons, ← hitem,
      said, said, length_cons]
    generalize said (es.flatMap itemLines) = rest at *
    generalize parseLine (curLine (itemLine e.2 (e.1 + 1))) = line at *
    cases said (commentLines e.2) with
    | none => exact ⟨fun items h => (by cases h), iff_of_false (by simp) fun h => (by cases h.1.1)⟩
    | some before =>
      cases line with
      | none => exact ⟨fun items h => (by cases h), iff_of_false (by simp) fun h => (by cases h.1.2)⟩
      | some item =>
        obtain ⟨first, rfl⟩ : ∃ first, item = some first := by
          cases item with
          | none => exact absurd rfl hsome
          | some first => exact ⟨first, rfl⟩
        cases rest with
        | none => exact ⟨fun items h => (by cases h), iff_of_false (by simp) fun h => (by cases h.2)⟩
        | some items =>
          have hlength := ihLength items rfl
          refine ⟨fun items' h => ?_, ?_, ?_⟩
          · obtain rfl : before ++ [first] ++ items = items' := some.inj h
            rw [length_append, length_append, length_singleton]
            omega
          · intro h
            have hlist : before ++ [first] ++ items = (e.1, loaded e.2) :: es.map fun e => (e.1, loaded e.2) :=
              some.inj h
            have hlen := congrArg length hlist
            rw [length_append, length_append, length_singleton, length_cons,
              length_map] at hlen
            obtain rfl : before = [] := eq_nil_of_length_eq_zero (by omega)
            obtain ⟨hfirst, hitems⟩ := cons.inj hlist
            exact ⟨⟨rfl, congrArg (fun first => some (some first)) hfirst⟩, congrArg some hitems⟩
          · rintro ⟨⟨hbefore, hfirst⟩, hitems⟩
            rw [some.inj hbefore, some.inj (some.inj hfirst), some.inj hitems]
            rfl

lemma said_textLines_iff {t : Zconfig}
    (hes : ∀ e ∈ t.child.preorder 0, ∃ name : CString, e.2.name = some name ∧ IsName name ∧ name.bytes ≠ []) :
    said t.textLines = some ((t.child.map loaded).preorder 0) ↔ said (commentLines t.self) = some [] ∧
      ∀ e ∈ t.child.preorder 0, said (commentLines e.2) = some [] ∧ ∀ value ∈ e.2.value, quote ∉ value.bytes := by
  obtain ⟨hlength, heq⟩ := said_items_iff hes
  rw [← heq, Forest.preorder_map, textLines, said_append]
  generalize said ((t.child.preorder 0).flatMap itemLines) = rest at *
  cases said (commentLines t.self) with
  | none => exact iff_of_false (by simp) fun h => (by cases h.1)
  | some before =>
    cases rest with
    | none => exact iff_of_false (by simp) fun h => (by cases h.2)
    | some items =>
      have hle := hlength items rfl
      constructor
      · intro h
        have hlist := some.inj h
        have hlen := congrArg length hlist
        rw [length_append, length_map] at hlen
        obtain rfl : before = [] := eq_nil_of_length_eq_zero (by omega)
        exact ⟨rfl, congrArg some hlist⟩
      · rintro ⟨hbefore, hitems⟩
        rw [some.inj hbefore, some.inj hitems]
        rfl

lemma length_commentLines_iff (item : ConfigItem) : (∀ l ∈ commentLines item, l.length ≤ 1024) ↔
    ∀ comment ∈ item.comments, ∀ l ∈ splitLines (commentLine comment), l.length ≤ 1024 := by
  constructor
  · intro h comment hcomment l hl
    exact h l (mem_append_left _ (mem_flatMap.mpr ⟨comment, hcomment, hl⟩))
  intro h l hl
  rcases mem_append.mp hl with hl | hl
  · obtain ⟨comment, hcomment, hl⟩ := mem_flatMap.mp hl
    exact h comment hcomment l hl
  split at hl
  · cases hl
  · rw [mem_singleton.mp hl]
    exact zero_le _

lemma commentsSilent_iff (item : ConfigItem) : CommentsSilent item ↔
    said (commentLines item) = some [] ∧ ∀ l ∈ commentLines item, l.length ≤ 1024 := by
  rw [said_commentLines_iff, length_commentLines_iff]
  constructor
  · intro h
    exact ⟨fun comment hcomment l hl => (h comment hcomment l hl).1, fun comment hcomment l hl =>
      (h comment hcomment l hl).2⟩
  · rintro ⟨hsilent, hshort⟩ comment hcomment l hl
    exact ⟨hsilent comment hcomment l hl, hshort comment hcomment l hl⟩

/-! ### The round trip -/

lemma roundTrips_iff (h : t.Printable) : t.RoundTrips ↔ t.savedSize < 2 ^ 31 ∧
    (∀ l ∈ t.textLines, l.length ≤ 1024) ∧ said t.textLines = some ((t.child.map loaded).preorder 0) := by
  have hload : ∀ self' : Zconfig, chunkLoad ⟨(textOf t.lines).length, textOf t.lines, le_rfl⟩ = .ok (some self') ↔
      (∀ l ∈ t.textLines, l.length ≤ 1024) ∧ root.loadLines t.textLines = some self' := by
    intro self'
    rw [chunkLoad, ← textOf_textLines]
    have hloop := loadLoop_textOf h.newline_not_mem (Nat.le_refl ((textOf t.textLines).length + 0)) root self'
    rw [and_iff_right rfl] at hloop
    exact hloop
  have hchild : (root.loadLines t.textLines).map child = some (t.child.map loaded) ↔
      said t.textLines = some ((t.child.map loaded).preorder 0) := by
    have hnull : root.child = .null := rfl
    rw [child_loadLines, hnull]
    cases said t.textLines with
    | none => exact iff_of_false (by simp) fun h => (by cases h)
    | some items => rw [bind_some, Forest.build_eq_some_iff, some_inj]
  rw [RoundTrips, ← hchild, ← length_textOf_lines]
  constructor
  · rintro ⟨chunk, self', hsave, -, hloaded, htree⟩
    rw [chunkSave_eq] at hsave
    split at hsave
    · cases hsave
    next hsize =>
    obtain rfl := Except.ok.inj hsave
    obtain ⟨hshort, hlines⟩ := (hload self').mp hloaded
    rw [hlines, map_some, htree]
    exact ⟨Nat.lt_of_not_le hsize, hshort, rfl⟩
  · rintro ⟨hsize, hshort, hlines⟩
    obtain ⟨self', hself, htree⟩ := map_eq_some_iff.mp hlines
    refine ⟨_, self', ?_, rfl, (hload self').mpr ⟨hshort, hself⟩, htree⟩
    rw [chunkSave_eq, if_neg (Nat.not_le_of_lt hsize)]

/-- The configurations that come back. -/
theorem zconfig_round_trips_iff (t : Zconfig) (h : t.Printable) : t.RoundTrips ↔ t.Storable := by
  rw [roundTrips_iff h]
  have hshort : (∀ l ∈ t.textLines, l.length ≤ 1024) ↔ (∀ l ∈ commentLines t.self, l.length ≤ 1024) ∧
      ∀ e ∈ t.child.preorder 0, (∀ l ∈ commentLines e.2, l.length ≤ 1024) ∧ itemLength e ≤ 1024 := by
    simp only [textLines, itemLines, forall_mem_append, forall_mem_flatMap, forall_mem_singleton,
      length_itemLine]
  have hnamed : (∀ e ∈ t.child.preorder 0, e.2.name ≠ some ⟨[], by decide⟩) →
      ∀ e ∈ t.child.preorder 0, ∃ name : CString, e.2.name = some name ∧ IsName name ∧ name.bytes ≠ [] := by
    intro hnames e he
    obtain ⟨name, hname, hchars⟩ := h.names e he
    refine ⟨name, hname, hchars, fun hnil => hnames e he ?_⟩
    rw [hname]
    obtain ⟨bytes, hzero⟩ := name
    obtain rfl : bytes = [] := hnil
    rfl
  rw [hshort]
  constructor
  · rintro ⟨hsize, ⟨hself, hitems⟩, hsaid⟩
    have hnames : ∀ e ∈ t.child.preorder 0, e.2.name ≠ some ⟨[], by decide⟩ := by
      intro e he hname
      have hmem : (e.1, loaded e.2) ∈ (t.child.map loaded).preorder 0 := by
        rw [Forest.preorder_map]
        exact mem_map.mpr ⟨e, he, rfl⟩
      obtain ⟨name, hloaded, hne⟩ := name_of_said hsaid hmem
      obtain rfl : (⟨[], by decide⟩ : CString) = name := some.inj (hname.symm.trans hloaded)
      exact hne rfl
    obtain ⟨hown, hsaid⟩ := (said_textLines_iff (hnamed hnames)).mp hsaid
    exact
      { names := hnames
        values := fun e he => (hsaid e he).2
        short := fun e he => (hitems e he).2
        own := (commentsSilent_iff t.self).mpr ⟨hown, hself⟩
        comments := fun e he => (commentsSilent_iff e.2).mpr ⟨(hsaid e he).1, (hitems e he).1⟩
        size := hsize }
  · intro hstorable
    have hcomments := fun e he => (commentsSilent_iff e.2).mp (hstorable.comments e he)
    obtain ⟨hown, hself⟩ := (commentsSilent_iff t.self).mp hstorable.own
    refine ⟨hstorable.size, ⟨hself, fun e he => ⟨(hcomments e he).2, hstorable.short e he⟩⟩, ?_⟩
    refine (said_textLines_iff (hnamed hstorable.names)).mpr ⟨hown, fun e he => ⟨(hcomments e he).1, ?_⟩⟩
    exact hstorable.values e he

/-- A section `a.b` with a comment and an item `c` in it, whose value has an apostrophe, a hash sign and spaces. -/
def dottedSection : Zconfig :=
  ⟨root.self, .item ⟨some ⟨[97, 46, 98], by decide⟩, none, [⟨[104, 105], by decide⟩]⟩
    (.item ⟨some ⟨[99], by decide⟩, some ⟨[space, apost, hashSign, space], by decide⟩, []⟩ .null .null) .null⟩

theorem zconfig_round_trips_section : dottedSection.RoundTrips := by
  refine (zconfig_round_trips_iff dottedSection ⟨?_, by decide⟩).mpr ⟨by decide, by decide, by decide,
    by decide, ?_, ?_⟩
  · refine forall_mem_cons.mpr ⟨⟨_, rfl, all_eq_true.mp (by decide), by decide, by decide⟩, ?_⟩
    exact forall_mem_singleton.mpr ⟨_, rfl, all_eq_true.mp (by decide), by decide, by decide⟩
  · decide
  · decide

/-- An item whose value has quotes. -/
def speech : Zconfig :=
  ⟨root.self, .item ⟨some ⟨[97], by decide⟩, some ⟨[quote, 98, quote], by decide⟩, []⟩ .null .null⟩

/-- A value with quotes does not come back. -/
theorem zconfig_drops_quotes : speech.Printable ∧ ¬ speech.RoundTrips := by
  refine ⟨⟨?_, ?_⟩, ?_⟩
  · exact forall_mem_singleton.mpr ⟨_, rfl, all_eq_true.mp (by decide), by decide, by decide⟩
  · exact forall_mem_singleton.mpr (by decide)
  · rintro ⟨chunk, self, hsave, -, hload, -⟩
    have hnone : speech.chunkSave.bind chunkLoad = .ok none := by decide +kernel
    rw [hsave] at hnone
    cases hload.symm.trans hnone

end Zconfig

end Czmq
