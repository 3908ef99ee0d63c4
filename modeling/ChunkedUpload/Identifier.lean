/-! Fresh identifiers. Each state of the source gives another one: the state runs through all words
of 64 bits, and an invertible mixing of its bits hides their order. -/
namespace ChunkedUpload

structure IdSource where
  state : UInt64
deriving DecidableEq, Repr

namespace IdSource

/-- Spreads every bit of a word over all others. -/
def mix (z : UInt64) : UInt64 :=
  let z := (z ^^^ z >>> 30) * 0xbf58476d1ce4e5b9
  let z := (z ^^^ z >>> 27) * 0x94d049bb133111eb
  z ^^^ z >>> 31

def next (source : IdSource) : Int64 × IdSource :=
  let state := source.state + 0x9e3779b97f4a7c15
  ((mix state).toInt64, ⟨state⟩)

end IdSource

end ChunkedUpload
