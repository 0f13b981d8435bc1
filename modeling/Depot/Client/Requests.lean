import Depot.Packet.Payload

/-!
# What a client sends

The packets by which a client asks for a file, announces and sends one, and asks for a user id.
-/

namespace Depot.Client

/-- Asks for a file. -/
def fileRequest (user : UInt32) (kind : FileKind) (name : String) (operation : UInt8) :
    Except PayloadError Packet := do
  let payload ← FileRequest.encode { user, name }
  return ((Packet.new .fileRequest payload).withKind kind).withOperation operation

/-- Announces a file of a given size. -/
def fileInfo (size user : UInt32) (kind : FileKind) (name : String) (operation : UInt8) :
    Except PayloadError Packet := do
  let payload ← FileDescriptor.encode { size, user, name }
  return (((Packet.new .fileInfo payload).withKind kind).withOperation operation).withMore true

/-- Asks for a new user id. -/
def idRequest (operation : UInt8) : Packet := (Packet.new .idRequest []).withOperation operation

/-- Cuts data into blocks of a length; the last one may be shorter. A length of zero counts as one. -/
def blocks (length : Nat) (data : List UInt8) : List (List UInt8) :=
  match data with
  | [] => []
  | b :: rest =>
      (b :: rest.take (length - 1)) :: blocks length (rest.drop (length - 1))
termination_by data.length
decreasing_by simp only [List.length_drop, List.length_cons]; omega

/-- The number in the packet of the block at an index, counted from one; it stays at the largest. -/
def blockNumber (index : Nat) : UInt16 := UInt16.ofNat (min (index + 1) 65535)

/-- The packet of one block. -/
def blockPacket (operation : UInt8) (index : Nat) (block : List UInt8) (more : Bool) : Packet :=
  (((Packet.new .file block).withSequence (blockNumber index)).withOperation operation).withMore
    more

/-- The packets of blocks from an index on; all but the last say that more follow. -/
def blockPackets (operation : UInt8) (index : Nat) : List (List UInt8) → List Packet
  | [] => []
  | [block] => [blockPacket operation index block false]
  | block :: rest => blockPacket operation index block true :: blockPackets operation (index + 1) rest

/-- The content of a file in packets. A file without content still has one packet. -/
def fileChunks (data : List UInt8) (length : Nat) (operation : UInt8) : List Packet :=
  if data.isEmpty then [(Packet.new .file []).withOperation operation]
  else blockPackets operation 0 (blocks length data)

end Depot.Client
