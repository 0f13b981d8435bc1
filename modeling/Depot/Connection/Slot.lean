import Depot.Frame.Reader
import Depot.Frame.Writer
import Depot.Server.Config
import Depot.Session.Lineage

/-!
# Connection slots

A slot is all that a connection needs and that is used again for the next one: the session, the two
ends of the framing and the buffer that bytes are read into. Between two connections it is recycled;
handles on the session before that mean a session that nobody else sees any more.
-/

namespace Depot

/-- What one connection after another is served with. -/
structure Slot where
  lineage : Lineage := {}
  reader : Frame.Reader
  /-- The bytes that were read last. -/
  buffer : List UInt8 := []
  writer : Frame.Writer
  deriving DecidableEq, Repr

namespace Slot

/-- A slot of the size that a configuration asks for. -/
def new (c : Config) : Slot := { reader := .new c.maxPayload, writer := .new c.sendChunk }

/-- A slot with the buffers that a configuration asks for, if there can be as much room. -/
def new? (c : Config) : Option Slot :=
  if Memory.holds c.readBuffer 1 && Memory.holds c.sendChunk 1 then some (new c) else none

/-- The session of the connection that a slot serves. -/
def session (s : Slot) : Session := s.lineage.current

/-- Writes down whose connection it is. -/
def attach (s : Slot) (id : Nat) (peer : Option String) : Slot :=
  { s with lineage := s.lineage.update (·.attach id peer) }

/-- Makes a slot ready for the next connection. -/
def recycle (s : Slot) : Slot :=
  { lineage := s.lineage.reset, reader := s.reader.reset, buffer := [], writer := s.writer.reset }

/-- Whether a slot holds nothing of an earlier connection. -/
def isPristine (s : Slot) : Bool :=
  s.session.live && s.session.user == 0 && s.reader.isIdle && s.buffer.isEmpty && s.writer.isIdle

end Slot

end Depot
