import RowStore.Bytes

namespace RowStore.Utf8

def encode (text : String) : Bytes :=
  text.toList.flatMap String.utf8EncodeChar

/-- A character of several bytes of which the first ones have been read. -/
structure Unfinished where
  /-- The bits read so far. -/
  bits : Nat
  /-- How many bytes are still to come. -/
  missing : Nat
  /-- The smallest value the next byte may have. -/
  low : UInt8
  /-- The largest value the next byte may have. -/
  high : UInt8

/-- What has been made of the bytes so far, latest first: a character, or `none` for an ill-formed
part. -/
structure Reading where
  unfinished : Option Unfinished := none
  reversedParts : List (Option Char) := []

namespace Reading

def emit (reading : Reading) (part : Option Char) : Reading :=
  { reading with reversedParts := part :: reading.reversedParts }

def await (reading : Reading) (unfinished : Unfinished) : Reading :=
  { reading with unfinished := some unfinished }

/-- A byte at a character boundary. The bounds on the byte after it leave out overlong forms,
surrogates and values above U+10FFFF, so that every finished character is a scalar value. -/
def startWith (reading : Reading) (byte : UInt8) : Reading :=
  let reading := { reading with unfinished := none }
  let bits := byte.toNat
  if byte < 0x80 then reading.emit (some (Char.ofNat bits))
  else if byte < 0xC2 then reading.emit none
  else if byte < 0xE0 then reading.await ⟨bits - 0xC0, 1, 0x80, 0xBF⟩
  else if byte = 0xE0 then reading.await ⟨0, 2, 0xA0, 0xBF⟩
  else if byte = 0xED then reading.await ⟨0xD, 2, 0x80, 0x9F⟩
  else if byte < 0xF0 then reading.await ⟨bits - 0xE0, 2, 0x80, 0xBF⟩
  else if byte = 0xF0 then reading.await ⟨0, 3, 0x90, 0xBF⟩
  else if byte < 0xF4 then reading.await ⟨bits - 0xF0, 3, 0x80, 0xBF⟩
  else if byte = 0xF4 then reading.await ⟨4, 3, 0x80, 0x8F⟩
  else reading.emit none

/-- A byte that cannot go on with the unfinished character ends it as one ill-formed part and is
looked at afresh. -/
def next (reading : Reading) (byte : UInt8) : Reading :=
  match reading.unfinished with
  | none => reading.startWith byte
  | some unfinished =>
    if unfinished.low ≤ byte ∧ byte ≤ unfinished.high then
      let bits := unfinished.bits * 64 + (byte.toNat - 0x80)
      match unfinished.missing with
      | 0 | 1 => { reading with unfinished := none }.emit (some (Char.ofNat bits))
      | missing + 2 => reading.await ⟨bits, missing + 1, 0x80, 0xBF⟩
    else (reading.emit none).startWith byte

/-- All parts in order; a character cut short by the end is one ill-formed part. -/
def parts (reading : Reading) : List (Option Char) :=
  match reading.unfinished with
  | none => reading.reversedParts.reverse
  | some _ => (none :: reading.reversedParts).reverse

end Reading

/-- The characters and ill-formed parts of a byte string, in order. -/
def parts (bytes : Bytes) : List (Option Char) :=
  (bytes.foldl Reading.next {}).parts

/-- The text, if every byte belongs to a character. -/
def decode? (bytes : Bytes) : Option String :=
  let parts := parts bytes
  if parts.all Option.isSome then some (String.ofList (parts.filterMap id)) else none

/-- The text with U+FFFD for every ill-formed part. -/
def decodeLossy (bytes : Bytes) : String :=
  String.ofList ((parts bytes).map (·.getD '\uFFFD'))

end RowStore.Utf8
