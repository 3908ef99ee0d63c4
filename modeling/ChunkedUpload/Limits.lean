/-! Sizes of the upload protocol. A file is sent in parts of one fixed size, only the last of
which may be shorter; a file above a threshold is sent as a big file; an account tier bounds the
size of a file. -/
namespace ChunkedUpload

/-- Every part holds this many bytes, except that the last one may be shorter: 512 KiB. -/
def partSize : Nat := 512 * 1024

/-- A file strictly larger than this is sent as a big file: 10 MiB. -/
def bigFileThreshold : Nat := 10 * 1024 * 1024

def bigFileWorkers : Nat := 4

/-- Small files and single resent parts use one worker. -/
def smallFileWorkers : Nat := 1

def isBigFile (size : UInt64) : Bool :=
  decide (bigFileThreshold < size.toNat)

/-- The number of parts that cover `size` bytes, kept in 32 bits. It is exact as long as the file
has fewer than `2 ^ 32` parts and wraps around above. -/
def totalParts (size : UInt64) : UInt32 :=
  UInt32.ofNat ((size.toNat + (partSize - 1)) / partSize)

/-- The tier that the account look-up reports. -/
inductive AccountTier
  | standard
  | privileged
deriving DecidableEq, Inhabited, Repr

namespace AccountTier

/-- An account of which nothing is known counts as standard. -/
def ofFlag : Option Bool → AccountTier
  | some true => privileged
  | _ => standard

/-- 2000 MiB for a standard account and 4000 MiB for a privileged one. -/
def maxFileSize : AccountTier → UInt64
  | standard => 2000 * 1024 * 1024
  | privileged => 4000 * 1024 * 1024

def name : AccountTier → String
  | standard => "Standard"
  | privileged => "Privileged"

end AccountTier

/-- What bounds the size of a file: the tier of the account, or a number of bytes that the caller
knows already. -/
inductive SizeLimit
  | tier (account : AccountTier)
  | fixed (bytes : UInt64)
deriving DecidableEq, Repr

def SizeLimit.bytes : SizeLimit → UInt64
  | tier account => account.maxFileSize
  | fixed bytes => bytes

end ChunkedUpload
