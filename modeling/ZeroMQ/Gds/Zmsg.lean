import ZeroMQ.Gds.Json

/-!
# The messages of the GDS broker

`zmsg` keeps the parts of a message as strings that end at their first zero byte, so a part is a `String`
without zero characters, of characters that stand for bytes. A part that is the identity of a peer without
a name, seventeen bytes the first of which is zero, is kept as text.

Nothing is checked when a part is taken off: without parts `pop_front` makes a string of a null pointer,
and so do the functions above it and whoever makes a string of `body ()`.
-/

namespace Gds

/-- How the broker can fail. -/
inductive BrokerFault
  /-- `assert` -/
  | assertion
  /-- A string is made of a null pointer. -/
  | nullString
  /-- `at ()` with a key that is not there. -/
  | outOfRange
  /-- The service of a worker that has none. -/
  | nullService
  /-- A worker that has been deleted. -/
  | dangling
  /-- An assertion of the JSON library or of `jsonAPI`. -/
  | json (fault : JsonFault)
  deriving DecidableEq, Repr

/-- A fault of what is done with JSON. -/
def ofJson {α : Type} (r : Except JsonFault α) : Except BrokerFault α := r.mapError .json

/-! ### Receiving -/

/-- The characters that stand for bytes. -/
def ofBytes (data : List UInt8) : String := String.ofList (data.map fun b => Char.ofNat b.toNat)

/-- `c_str ()`: the string up to the first zero character. -/
def cstr (s : String) : String := String.ofList (s.toList.takeWhile fun c => c ≠ Char.ofNat 0)

/-- `hex_char`. -/
def hexChar (digit : ℕ) : Char := "0123456789ABCDEF".toList.getD digit '0'

/-- `zmsg::encode_uuid`. -/
def encodeUuid (data : List UInt8) : String :=
  String.ofList ('@' :: (data.drop 1).flatMap fun b => [hexChar (b.toNat / 16), hexChar (b.toNat % 16)])

/-- `zmsg::recv` for one part. -/
def recvPart (data : List UInt8) : String :=
  if data.length = 17 ∧ data.head? = some 0 then encodeUuid data
  else ofBytes (data.takeWhile fun b => b ≠ 0)

/-- `zmsg`: the parts. -/
abbrev Zmsg := List String

namespace Zmsg

/-- `recv`. -/
def recv (parts : List (List UInt8)) : Zmsg := parts.map recvPart

/-! ### Parts -/

/-- `pop_front`. -/
def popFront (msg : Zmsg) : Except BrokerFault (String × Zmsg) :=
  match msg with
  | [] => .error .nullString
  | part :: rest => .ok (part, rest)

/-- A string made of `body ()`. -/
def body (msg : Zmsg) : Except BrokerFault String :=
  match msg.getLast? with
  | none => .error .nullString
  | some part => .ok part

/-- `body_set`. -/
def bodySet (msg : Zmsg) (body : String) : Zmsg := msg.dropLast ++ [body]

/-- `wrap` with a delimiter. -/
def wrap (msg : Zmsg) (address delim : String) : Zmsg := address :: delim :: msg

/-- `unwrap`: the address and, if the next part is empty, that part too. -/
def unwrap (msg : Zmsg) : Except BrokerFault (String × Zmsg) :=
  match msg with
  | [] => .error .nullString
  | addr :: rest => .ok (addr, if rest.head? = some "" then rest.tail else rest)

end Zmsg

end Gds
