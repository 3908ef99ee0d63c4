import ChunkedUpload.Limits

/-! What travels: the request that delivers one part, and the reference to a stored file that a
finished upload gives back. -/
namespace ChunkedUpload

/-- Payloads are the same if their bytes are. -/
instance payloadDecidableEq : DecidableEq ByteArray := ByteArray.instDecidableEq

/-- Delivers one part of a file. A part of a big file carries the number of all parts, so that the
other side can put parts together that arrive in any order; a part of a small file carries none. -/
structure PartRequest where
  fileId : Int64
  part : UInt32
  total : Option UInt32
  payload : ByteArray
deriving DecidableEq

namespace PartRequest

def isBig (request : PartRequest) : Bool := request.total.isSome

end PartRequest

/-- Refers to a stored file. A small file has the MD5 checksum of its bytes in lowercase hex; a big
file has none, and that is what tells the two kinds apart. -/
structure FileReference where
  fileId : Int64
  parts : UInt32
  name : String
  checksum : Option String
deriving DecidableEq, Repr

namespace FileReference

def isBig (reference : FileReference) : Bool := reference.checksum.isNone

def kind (reference : FileReference) : String :=
  if reference.isBig then "big" else "small"

end FileReference

end ChunkedUpload
