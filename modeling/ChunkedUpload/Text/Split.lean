/-! Cutting a text in two. -/
namespace ChunkedUpload.Text

/-- What stands in front of the first character of a kind and, if there is one, behind it. -/
def splitAt (here : Char → Bool) (cs : List Char) : List Char × Option (List Char) :=
  match cs.dropWhile (fun c => !here c) with
  | [] => (cs, none)
  | _ :: rest => (cs.takeWhile (fun c => !here c), some rest)

end ChunkedUpload.Text
