import ChunkedUpload.FileSystem.Basic

/-! What tells one file system from another, as steps that make the first into the second. -/
namespace ChunkedUpload.FileSystem

inductive Change
  | remove (place : Location)
  | makeDirectory (place : Location)
  | write (place : Location) (bytes : ByteArray)

/-- What has to be done about a place at which a node stands afterwards. -/
def changeAt (before after : FileSystem) (place : Location) : Node → List Change
  | .sink => []
  | .directory => if before.isDirectoryAt place then [] else [.makeDirectory place]
  | .file number =>
    let bytes := after.content number
    match before.node? place with
    | some (.file old) => if before.content old == bytes then [] else [.write place bytes]
    | _ => [.write place bytes]

/-- Names are taken away first, and what is new comes after the directory in which it stands. -/
def changes (before after : FileSystem) : List Change :=
  let gone := before.entries.filter fun entry => (after.node? entry.1).isNone
  let ordered := after.entries.mergeSort fun a b => decide (a.1.length ≤ b.1.length)
  gone.map (fun entry => .remove entry.1) ++
    ordered.flatMap fun entry => before.changeAt after entry.1 entry.2

end ChunkedUpload.FileSystem
