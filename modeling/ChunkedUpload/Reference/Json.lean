import ChunkedUpload.Json.Record
import ChunkedUpload.Json.Value
import ChunkedUpload.Request

/-! References as JSON. The kind of the file stands in a member of its own, first of all; a small
file has its checksum, last of all. What is read may have its members in any order and may have more
of them, or may be an array of the values alone, in the order in which they are written. -/
namespace ChunkedUpload.FileReference

def record (reference : FileReference) : Json.Record :=
  [("kind", .text reference.kind), ("id", .integer reference.fileId.toInt),
    ("parts", .integer reference.parts.toNat), ("name", .text reference.name)] ++
    reference.checksum.toList.map fun sum => ("md5_checksum", .text sum)

def toJson (reference : FileReference) : String := Json.compact reference.record

def toPrettyJson (reference : FileReference) : String := Json.pretty reference.record

def ofValues? (id parts name : Json) (checksum : Option String) : Option FileReference := do
  return ⟨← id.toSigned64?, ← parts.toWord32?, ← name.toText?, checksum⟩

def ofMembers? (members : List (String × Json)) : Option FileReference := do
  let kind ← (← Json.member? members "kind").toText?
  let id ← Json.member? members "id"
  let parts ← Json.member? members "parts"
  let name ← Json.member? members "name"
  match kind with
  | "small" => ofValues? id parts name (← (← Json.member? members "md5_checksum").toText?)
  | "big" => ofValues? id parts name none
  | _ => none

def ofItems? : List Json → Option FileReference
  | [.text "small", id, parts, name, .text checksum] => ofValues? id parts name checksum
  | [.text "big", id, parts, name] => ofValues? id parts name none
  | _ => none

def ofJson? (text : String) : Option FileReference := do
  match ← Json.parse? text with
  | .object members => ofMembers? members
  | .array items => ofItems? items
  | _ => none

end ChunkedUpload.FileReference
