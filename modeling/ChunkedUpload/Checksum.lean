import ChunkedUpload.Md5
import ChunkedUpload.Text.Hex

/-! The checksum of a file that is read piece by piece. The producer feeds the parts in their order,
so the checksum does not depend on how the workers are scheduled. -/
namespace ChunkedUpload

/-- The MD5 of the bytes fed so far: whole blocks are folded into the state, and less than a block
is kept back. -/
structure Checksum where
  state : Md5.State
  pending : ByteArray
  bytes : Nat

namespace Checksum

def empty : Checksum := ⟨Md5.initial, ByteArray.empty, 0⟩

def update (sum : Checksum) (chunk : ByteArray) : Checksum :=
  let joined := sum.pending ++ chunk
  let blocks := joined.size / 64
  { state := Md5.absorb joined 0 blocks sum.state
    pending := joined.extract (64 * blocks) joined.size
    bytes := sum.bytes + chunk.size }

def hex (sum : Checksum) : String :=
  let last := sum.pending ++ Md5.padding sum.bytes
  Text.hexBytes (Md5.absorb last 0 (last.size / 64) sum.state).digest

def ofBytes (content : ByteArray) : String := Text.hexBytes (Md5.digest content)

end Checksum

end ChunkedUpload
