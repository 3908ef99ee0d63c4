import ChunkedUpload.Content
import ChunkedUpload.Error

/-! Seekable byte streams as their users see them. What a stream holds is one thing, how it behaves
is another: it may report a wrong size, give fewer bytes than asked for, fail, or never answer. -/
namespace ChunkedUpload

inductive ReadReply
  /-- With at most so many bytes, and with none at the end of what it holds. -/
  | upTo (count : Nat)
  | failure (error : IoError)
  | never
deriving DecidableEq, Repr

structure Stream where
  content : Content
  /-- What seeking to the end reports. -/
  reportedSize : UInt64
  /-- Whether the seek of this number fails, counted from zero. -/
  seekFailure : Nat → Option IoError
  /-- The answer to the read of this number at this position. -/
  reply : Nat → Nat → ReadReply
  position : Nat
  seeks : Nat
  reads : Nat

namespace Stream

/-- A stream that gives what it is asked for, if there is as much, and never fails. -/
def ofContent (content : Content) : Stream where
  content := content
  reportedSize := UInt64.ofNat content.size
  seekFailure _ := none
  reply _ _ := .upTo (max content.size 1)
  position := 0
  seeks := 0
  reads := 0

def ofBytes (bytes : ByteArray) : Stream := ofContent (Content.ofBytes bytes)

/-- A seek; when it fails the position stays. -/
def seekTo (stream : Stream) (target : Nat) : Except IoError Unit × Stream :=
  let counted := { stream with seeks := stream.seeks + 1 }
  match stream.seekFailure stream.seeks with
  | some error => (.error error, counted)
  | none => (.ok (), { counted with position := target })

/-- Seeks to the end and tells how far that is. -/
def seekToEnd (stream : Stream) : Except IoError UInt64 × Stream :=
  match stream.seekTo stream.reportedSize.toNat with
  | (.ok (), moved) => (.ok stream.reportedSize, moved)
  | (.error error, same) => (.error error, same)

inductive ReadResult
  /-- No bytes mean that the stream has ended. -/
  | bytes (chunk : ByteArray)
  | failed (error : IoError)
  | pending

/-- One read of at most `wanted` bytes. -/
def read (stream : Stream) (wanted : Nat) : ReadResult × Stream :=
  let counted := { stream with reads := stream.reads + 1 }
  match stream.reply stream.reads stream.position with
  | .upTo count =>
    let chunk := stream.content.slice stream.position (min count wanted)
    (.bytes chunk, { counted with position := stream.position + chunk.size })
  | .failure error => (.failed error, counted)
  | .never => (.pending, counted)

end Stream

end ChunkedUpload
