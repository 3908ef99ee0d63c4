import ChunkedUpload.FileSystem.Operations
import ChunkedUpload.Request
import ChunkedUpload.Stream
import ChunkedUpload.Text.Quoted

/-! The source of an upload: a file or a stream of the caller, opened, measured against a limit, and
read part by part. -/
namespace ChunkedUpload

inductive Input
  /-- A file, opened and owned by the upload. What it holds when it is opened is given out by a
  handle, which may fail to seek or to read, and may be overtaken by what becomes of the file. -/
  | path (path : Path) (handle : ByteArray → Stream := Stream.ofBytes)
  /-- An open stream, which stays the caller's. -/
  | stream (stream : Stream) (name : Option String)

/-- A source that has been opened and may be read. -/
structure Source where
  stream : Stream
  size : UInt64
  name : String
  owned : Bool

inductive PartRead
  /-- A part of a source that has more to give is full. -/
  | part (payload : ByteArray)
  | ended
  | failed (error : IoError)
  /-- The stream does not answer; what it gave before for this part is lost. -/
  | pending

namespace Source

/-- The name of a source that has none. -/
def defaultName : String := "file.jpg"

/-- Measures a stream by seeking to its end and back, then holds it against the limit. The stream
is given back in any case, where the seeks left it. -/
def ofStream (stream : Stream) (name : String) (owned : Bool) (limit : UInt64) :
    Except UploadError Source × Stream :=
  match stream.seekToEnd with
  | (.error error, moved) => (.error (.io error), moved)
  | (.ok size, moved) =>
    match moved.seekTo 0 with
    | (.error error, moved) => (.error (.io error), moved)
    | (.ok (), rewound) =>
      if size = 0 then (.error .emptyFile, rewound)
      else if limit < size then (.error (.sizeLimitExceeded size limit), rewound)
      else (.ok ⟨rewound, size, name, owned⟩, rewound)

def openPath (files : FileSystem) (path : Path) (handle : ByteArray → Stream) :
    Except UploadError Stream :=
  if path.bytes.isEmpty then .error (.invalidInput .emptyPath)
  else if files.isDirectory path then .error (.invalidInput (.directory path.display))
  else
    match files.read path with
    | .ok bytes => .ok (handle bytes)
    | .error error => .error (.io error)

def nameOf (path : Path) : String :=
  match path.fileName? with
  | some name => Text.lossy name
  | none => defaultName

/-- Opens what the caller gave. The second component is the caller's stream, if there is one. -/
def ofInput (files : FileSystem) (input : Input) (limit : UInt64) :
    Except UploadError Source × Option Stream :=
  match input with
  | .path path handle =>
    match openPath files path handle with
    | .error error => (.error error, none)
    | .ok stream => ((ofStream stream (nameOf path) true limit).1, none)
  | .stream stream name =>
    let (opened, moved) := ofStream stream (name.getD defaultName) false limit
    (opened, some moved)

/-- Goes to the beginning of a part, wherever the source is. -/
def seekToPart (source : Source) (part : UInt32) : Except UploadError Unit × Source :=
  match source.stream.seekTo (part.toNat * partSize) with
  | (.ok (), moved) => (.ok (), { source with stream := moved })
  | (.error error, same) => (.error (.io error), { source with stream := same })

/-- Reads until the part is full or the stream ends; `filled` is what the part has so far. -/
def fill (stream : Stream) (filled : ByteArray) : PartRead × Stream :=
  if partSize ≤ filled.size then (.part filled, stream)
  else
    match stream.read (partSize - filled.size) with
    | (.failed error, moved) => (.failed error, moved)
    | (.pending, moved) => (.pending, moved)
    | (.bytes chunk, moved) =>
      if chunk.size = 0 then
        (if filled.size = 0 then .ended else .part filled, moved)
      else fill moved (filled ++ chunk)
termination_by partSize - filled.size
decreasing_by simp only [ByteArray.size_append]; omega

/-- The next part, or nothing at the end. -/
def readPart (source : Source) : PartRead × Source :=
  let (outcome, stream) := fill source.stream ByteArray.empty
  (outcome, { source with stream := stream })

def describe (source : Source) : String :=
  "FileSource \x7b size: " ++ toString source.size.toNat ++ ", name: " ++ Text.quote source.name ++
    ", owned: " ++ toString source.owned ++ " \x7d"

end Source

end ChunkedUpload
