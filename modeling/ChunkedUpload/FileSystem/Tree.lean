import ChunkedUpload.FileSystem.Basic

/-! What lies below a directory, at any depth. -/
namespace ChunkedUpload

/-- The way from one place down to another: the names between them, the outermost first. -/
def Location.below? (place lower : Location) : Option (List FileName) :=
  let depth := lower.length - place.length
  if depth ≠ 0 ∧ lower.drop depth = place then some (lower.take depth).reverse else none

namespace FileSystem

/-- Everything below a place, with the way to it. -/
def below (files : FileSystem) (place : Location) : List (List FileName × Node) :=
  files.entries.filterMap fun entry =>
    (Location.below? place entry.1).map fun way => (way, entry.2)

/-- A way as text, which ends in a slash if it leads to a directory. -/
def showWay (way : List FileName) (node : Node) : String :=
  let text := "/".intercalate (way.map Text.lossy)
  if node = .directory then text ++ "/" else text

end FileSystem

end ChunkedUpload
