import Mathlib.Data.List.Basic

/-!
# Message frames

A `msg_t` is one frame of a message: a body, a few flags, and a type that tells ordinary frames from
the delimiter a closing pipe sends. Whether the body is stored in the structure itself or in a shared
buffer is left out; but a frame made by `init_data` without a function that frees the data only points
to its body, which may change later.
-/

namespace Zmq

/-- The flags of `msg_t` the library acts on. -/
structure MsgFlags where
  /-- Another frame of the same message follows. -/
  more : Bool
  /-- A command of the wire protocol. -/
  command : Bool
  /-- The frame carries the peer's credential. -/
  credential : Bool
  /-- The frame carries the peer's identity. -/
  identity : Bool
  deriving DecidableEq, Repr

/-- No flag set. -/
def MsgFlags.none : MsgFlags := ⟨false, false, false, false⟩

/-- A frame of a message, with or without another one behind it. -/
def frameFlags (more : Bool) : MsgFlags := { MsgFlags.none with more := more }

/-- The type of a frame. -/
inductive MsgType
  | data
  | delimiter
  /-- The body is elsewhere in memory; the field `body` is what was there when the frame was made. -/
  | cmsg
  deriving DecidableEq, Repr

/-- `msg_t`. -/
structure Msg where
  type : MsgType
  flags : MsgFlags
  body : List UInt8
  deriving DecidableEq, Repr

namespace Msg

/-- `msg_t::init_delimiter`. -/
def initDelimiter : Msg := ⟨.delimiter, MsgFlags.none, []⟩

/-- `msg_t::flags () & msg_t::more`. -/
def more (m : Msg) : Bool := m.flags.more

/-- `msg_t::is_identity`. -/
def isIdentity (m : Msg) : Bool := m.flags.identity

/-- `msg_t::is_credential`. -/
def isCredential (m : Msg) : Bool := m.flags.credential

/-- `msg_t::is_delimiter`. -/
def isDelimiter (m : Msg) : Bool := m.type = .delimiter

end Msg

end Zmq
