import RowStore.Bytes

namespace RowStore

/-- The register of a checksum being computed, so that a block can be fed in pieces. -/
abbrev ChecksumRegister := UInt32

namespace ChecksumRegister

def initial : ChecksumRegister := 0xFFFFFFFF

/-- One bit of polynomial division. -/
def shiftBit (register : ChecksumRegister) : ChecksumRegister :=
  if register &&& 1 = 1 then (register >>> 1) ^^^ 0xEDB88320 else register >>> 1

/-- One byte of polynomial division: the byte enters at the low end and eight bits leave. -/
def absorbByte (register : ChecksumRegister) (byte : UInt8) : ChecksumRegister :=
  shiftBit (shiftBit (shiftBit (shiftBit (shiftBit (shiftBit (shiftBit (shiftBit
    (register ^^^ byte.toUInt32))))))))

def absorb (register : ChecksumRegister) (bytes : Bytes) : ChecksumRegister :=
  bytes.foldl absorbByte register

/-- The checksum of everything the register has read. -/
def value (register : ChecksumRegister) : UInt32 :=
  register ^^^ 0xFFFFFFFF

theorem absorb_append (register : ChecksumRegister) (first second : Bytes) :
    absorb register (first ++ second) = absorb (absorb register first) second :=
  List.foldl_append

end ChecksumRegister

def Bytes.checksum (bytes : Bytes) : UInt32 :=
  (ChecksumRegister.initial.absorb bytes).value

/-- The checksum as it is written to a file. -/
def Bytes.checksumField (bytes : Bytes) : Bytes :=
  littleEndian 4 bytes.checksum.toNat

@[simp] theorem Bytes.length_checksumField (bytes : Bytes) : bytes.checksumField.length = 4 := by
  simp [checksumField]

end RowStore
