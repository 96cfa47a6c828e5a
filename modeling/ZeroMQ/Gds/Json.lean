import Mathlib.Data.String.Basic

/-!
# JSON trees of the GDS messages

The GDS programs write and read their messages as trees of the bundled JSON library. `Json` is
`Json::Value`, with the members of an object in the order of their keys, and `jsonAPI` is a thin layer over
it: a member is set or read by its name, and what is read must have the type that is asked for.

Two kinds of assertions can fail. The library asserts that only an object, or nothing at all, is asked for
a member; `jsonAPI` asserts the types in a debug build, which is the parameter `debug`, and otherwise tells
its caller.
-/

namespace Gds

open List

/-- `Json::Value`. -/
inductive Json
  | null
  | int (value : ℤ)
  | uint (value : ℕ)
  | real (text : String)
  | bool (value : Bool)
  | string (value : String)
  | array (values : List Json)
  | object (members : List (String × Json))

/-- An assertion that fails. -/
inductive JsonFault
  | jsonAssert
  | assertC
  deriving DecidableEq, Repr

/-- `JSON_ToString` and `JSON_Prase`, which print and parse trees. -/
structure JsonLib where
  /-- `JSON_ToString` -/
  write : Json → String
  /-- `JSON_Prase`, with no tree when it returns false. -/
  parse : String → Option Json

/-- Set a member among those of an object, which are in the order of their keys. -/
def setMember (key : String) (value : Json) : List (String × Json) → List (String × Json)
  | [] => [(key, value)]
  | (k, v) :: rest =>
    if k = key then (key, value) :: rest
    else if key < k then (key, value) :: (k, v) :: rest
    else (k, v) :: setMember key value rest

namespace Json

/-- `node[AttrName] = value`: nothing becomes an object. -/
def set (node : Json) (key : String) (value : Json) : Except JsonFault Json :=
  match node with
  | .null => .ok (.object (setMember key value []))
  | .object members => .ok (.object (setMember key value members))
  | _ => .error .jsonAssert

/-- `node[AttrName]`: a member that is not there is nothing. -/
def get (node : Json) (key : String) : Except JsonFault Json :=
  match node with
  | .null => .ok .null
  | .object members => .ok ((members.lookup key).getD .null)
  | _ => .error .jsonAssert

/-- `size ()`. -/
def size : Json → ℕ
  | .array values => values.length
  | .object members => members.length
  | _ => 0

/-- `node[index]`. -/
def at_ (node : Json) (index : ℕ) : Except JsonFault Json :=
  match node with
  | .null => .ok .null
  | .array values => .ok ((values[index]?).getD .null)
  | _ => .error .jsonAssert

/-- The tree of `append` called for every value in turn on nothing. -/
def ofList : List Json → Json
  | [] => .null
  | value :: values => .array (value :: values)

end Json

/-! ### `jsonAPI` -/

/-- `ASSERT_C (false)`. -/
def assertC (debug : Bool) : Except JsonFault Unit := if debug then .error .assertC else .ok ()

/-- `JSON_GetAttributeValue` for an integer, with nothing when it returns false. -/
def getInt (debug : Bool) (node : Json) (attrName : String) : Except JsonFault (Option ℤ) :=
  match node.get attrName with
  | .error f => .error f
  | .ok (.int value) => .ok (some value)
  | .ok _ =>
    match assertC debug with
    | .error f => .error f
    | .ok () => .ok none

/-- `JSON_GetAttributeValue` for a string. -/
def getString (debug : Bool) (node : Json) (attrName : String) : Except JsonFault (Option String) :=
  match node.get attrName with
  | .error f => .error f
  | .ok (.string value) => .ok (some value)
  | .ok _ =>
    match assertC debug with
    | .error f => .error f
    | .ok () => .ok none

/-- `JSON_GetNodeType`. -/
def getNodeType (debug : Bool) (node : Json) : Except JsonFault ℤ :=
  (getInt debug node "MSGType").map fun iValue => iValue.getD 0

/-- Set some members one after the other. -/
def setAll : List (String × Json) → Json → Except JsonFault Json
  | [], node => .ok node
  | (key, value) :: rest, node =>
    match node.set key value with
    | .error f => .error f
    | .ok node => setAll rest node

/-! ### What is set is read -/

lemma lookup_setMember (key k : String) (value : Json) (members : List (String × Json)) :
    (setMember key value members).lookup k = if k = key then some value else members.lookup k := by
  induction members with
  | nil =>
    rw [setMember, lookup_cons]
    split <;> simp_all
  | cons entry rest ih =>
    obtain ⟨k', v⟩ := entry
    rw [setMember]
    split
    next heq =>
      rw [lookup_cons, lookup_cons, heq]
      split <;> simp_all
    next hne =>
      split
      next =>
        rw [lookup_cons]
        split <;> simp_all
      rw [lookup_cons, lookup_cons, ih]
      split <;> simp_all

lemma setAll_object (attributes : List (String × Json)) (members : List (String × Json)) :
    ∃ members', setAll attributes (.object members) = .ok (.object members') ∧
      ∀ k, members'.lookup k = (attributes.reverse.lookup k).or (members.lookup k) := by
  induction attributes generalizing members with
  | nil => exact ⟨members, rfl, fun k => rfl⟩
  | cons entry rest ih =>
    obtain ⟨key, value⟩ := entry
    obtain ⟨members', hset, hlookup⟩ := ih (setMember key value members)
    refine ⟨members', hset, fun k => ?_⟩
    rw [hlookup, lookup_setMember, reverse_cons, lookup_append]
    cases hrest : rest.reverse.lookup k with
    | some v => rfl
    | none =>
      simp only [Option.none_or, lookup_cons, lookup_nil]
      by_cases hk : k = key
      · simp [hk]
      · simp [hk, beq_eq_false_iff_ne.mpr hk]

lemma setAll_null {attributes : List (String × Json)} (hne : attributes ≠ []) :
    ∃ members, setAll attributes .null = .ok (.object members) ∧
      ∀ k, members.lookup k = attributes.reverse.lookup k := by
  obtain ⟨⟨key, value⟩, rest, rfl⟩ := exists_cons_of_ne_nil hne
  obtain ⟨members, hset, hlookup⟩ := setAll_object ((key, value) :: rest) []
  exact ⟨members, hset, fun k => by rw [hlookup, lookup_nil, Option.or_none]⟩

section Read

variable {debug : Bool} {members : List (String × Json)} {key : String}

lemma getInt_of_lookup {value : ℤ} (h : members.lookup key = some (.int value)) :
    getInt debug (.object members) key = .ok (some value) := by
  simp [getInt, Json.get, h]

lemma getString_of_lookup {value : String} (h : members.lookup key = some (.string value)) :
    getString debug (.object members) key = .ok (some value) := by
  simp [getString, Json.get, h]

lemma getNodeType_of_lookup {value : ℤ} (h : members.lookup "MSGType" = some (.int value)) :
    getNodeType debug (.object members) = .ok value := by
  rw [getNodeType, getInt_of_lookup h]
  rfl

lemma getNodeType_of_none (h : members.lookup "MSGType" = none) :
    getNodeType debug (.object members) = if debug then .error .assertC else .ok 0 := by
  cases debug <;> simp [getNodeType, getInt, Json.get, h, assertC, Except.map]

end Read

end Gds
