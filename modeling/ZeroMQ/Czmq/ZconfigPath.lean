import ZeroMQ.Czmq.Zconfig

/-!
# Paths in configurations

`zconfig_put` and `zconfig_locate` each take a path apart at its slashes and go down to the first child that has
the name. A name that is not there is added behind the last child. Both are what looking up and putting are in a
forest whose keys are the names, so that a value that has been put is found, and nothing else changes.

The name of an item may be `NULL`, but not where it is compared. Paths are those of which no segment is longer than an
`int` can tell.
-/

namespace Czmq

open List Except

namespace Zconfig

/-- The name up to the next slash, and the path from that slash on; a leading slash is ignored. -/
def nextSegment (path : List UInt8) : CString × Option (List UInt8) :=
  let path := if path.head? = some slash then path.tail else path
  (.ofBytes (path.takeWhile (· ≠ slash)), if slash ∈ path then some (path.dropWhile (· ≠ slash)) else none)

/-- The loop of `zconfig_locate` over the children, with the segment and the rest of the path. -/
def locateFrom : Forest ConfigItem → CString × Option (List UInt8) → Except CzmqFault (Option ConfigItem)
  | .null, _ => .ok none
  | .item x child next, (segment, rest) =>
    if x.name = none then .error .dangling
    else if x.name = some segment then
      match rest with
      | none => .ok (some x)
      | some path => locateFrom child (nextSegment path)
    else locateFrom next (segment, rest)

/-- `zconfig_locate`. -/
def locate (self : Zconfig) (path : CString) : Except CzmqFault (Option ConfigItem) :=
  locateFrom self.child (nextSegment path.bytes)

/-- `zconfig_resolve`. -/
def resolve (self : Zconfig) (path : CString) (default : Option CString) : Except CzmqFault (Option CString) :=
  (self.locate path).map fun item => item.elim default ConfigItem.value

lemma nextSegment_rest (path : List UInt8) :
    ((nextSegment path).2.elim 0 fun rest => rest.length + 1) ≤ path.length := by
  have hle : ∀ l : List UInt8, (l.dropWhile (· ≠ slash)).length ≤ l.length := fun l => (dropWhile_suffix _).length_le
  cases path with
  | nil => exact Nat.le_refl 0
  | cons c rest =>
    rw [nextSegment, head?_cons, tail_cons]
    by_cases hc : c = slash
    · subst hc
      by_cases hmem : slash ∈ rest
      · simpa [hmem] using hle rest
      · simp [hmem]
    · by_cases hmem : slash ∈ rest
      · simpa [hc, Ne.symm hc, hmem] using hle rest
      · simp [hc, Ne.symm hc, hmem]

/-- `zconfig_put` where no child has the name: `zconfig_new` with the segment, and the rest of the path below. -/
def putNew (value : CString) : CString × Option (List UInt8) → Forest ConfigItem
  | (segment, none) => .item ⟨some segment, some value, []⟩ .null .null
  | (segment, some path) => .item ⟨some segment, none, []⟩ (putNew value (nextSegment path)) .null
termination_by p => p.2.elim 0 fun path => path.length + 1
decreasing_by exact Nat.lt_succ_of_le (nextSegment_rest path)

/-- The loop of `zconfig_put` over the children. -/
def putFrom (value : CString) :
    Forest ConfigItem → CString × Option (List UInt8) → Except CzmqFault (Forest ConfigItem)
  | .null, p => .ok (putNew value p)
  | .item x child next, (segment, rest) =>
    if x.name = none then .error .dangling
    else if x.name = some segment then
      match rest with
      | none => .ok (.item { x with value := some value } child next)
      | some path => (putFrom value child (nextSegment path.tail)).map fun child => .item x child next
    else (putFrom value next (segment, rest)).map fun next => .item x child next

/-- `zconfig_put`. -/
def put (self : Zconfig) (path value : CString) : Except CzmqFault Zconfig :=
  (putFrom value self.child (nextSegment path.bytes)).map fun child => { self with child }

/-- The names with a slash before each of them. -/
def joined (names : List CString) : List UInt8 := names.flatMap fun n => slash :: n.bytes

/-- The path leads along the names, which are not empty and have no slash; their lengths are `int`s. -/
structure Leads (path : List UInt8) (names : List CString) : Prop where
  path : path = joined names ∨ slash :: path = joined names
  ne_nil : names ≠ []
  names : ∀ n ∈ names, n.bytes ≠ [] ∧ slash ∉ n.bytes ∧ n.bytes.length < 2 ^ 31

variable {path : List UInt8} {n : CString} {names : List CString} {value : CString}

lemma Leads.rest (h : Leads path (n :: names)) (hne : names ≠ []) : Leads (joined names) names :=
  ⟨.inl rfl, hne, fun n hn => h.names n (mem_cons_of_mem _ hn)⟩

lemma Leads.tail (h : Leads path (n :: names)) (hne : names ≠ []) : Leads (joined names).tail names := by
  obtain ⟨m, names, rfl⟩ := exists_cons_of_ne_nil hne
  exact ⟨.inr rfl, hne, (h.rest hne).names⟩

/-- A new item. -/
def named (name : Option CString) : ConfigItem := ⟨name, none, []⟩

end Zconfig

end Czmq
