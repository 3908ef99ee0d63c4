/-! Bytes by position. A content knows its size and each of its bytes, and need not be held in
memory as a whole. -/
namespace ChunkedUpload

structure Content where
  size : Nat
  byte : Nat → UInt8

namespace Content

def ofBytes (bytes : ByteArray) : Content where
  size := bytes.size
  byte i := if h : i < bytes.size then bytes[i] else 0

/-- Appends the bytes at `start`, `start + 1`, … to what has been collected. -/
def collect (content : Content) (start : Nat) : Nat → ByteArray → ByteArray
  | 0, collected => collected
  | count + 1, collected =>
    content.collect (start + 1) count (collected.push (content.byte start))

/-- The bytes from `start` on: `count` of them, or fewer where the content ends. -/
def slice (content : Content) (start count : Nat) : ByteArray :=
  let present := min count (content.size - start)
  content.collect start present (ByteArray.emptyWithCapacity present)

def toBytes (content : Content) : ByteArray := content.slice 0 content.size

end Content

end ChunkedUpload
