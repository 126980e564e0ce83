import RowStore.Bytes.Checksum
import RowStore.Fault

/-!
One logged write and the frame it is stored as: the length of the payload, the checksum of the
payload, and the payload, which is the sequence number, the key and the value each behind its
length in eight bytes, and the time of the write.
-/

namespace RowStore

structure LogEntry where
  /-- The sequence number. -/
  lsn : UInt64
  key : Bytes
  value : Bytes
  /-- Milliseconds since 1970 at the time of the write. -/
  timestamp : UInt64
  deriving DecidableEq, Repr, Inhabited

namespace LogEntry

/-- The width of a frame's length and checksum together. -/
def headerWidth : Nat := 8

/-- A number or a length inside a payload. -/
def wordWidth : Nat := 8

/-- The bytes of key and value, which is what an entry counts for in the budget of a table. -/
def weight (entry : LogEntry) : Nat :=
  entry.key.length + entry.value.length

def payload (entry : LogEntry) : Bytes :=
  Bytes.littleEndian wordWidth entry.lsn.toNat ++
    Bytes.littleEndian wordWidth entry.key.length ++ entry.key ++
    Bytes.littleEndian wordWidth entry.value.length ++ entry.value ++
    Bytes.littleEndian wordWidth entry.timestamp.toNat

/-- Length and checksum before a payload. -/
def framed (payload : Bytes) : Bytes :=
  Bytes.littleEndian 4 payload.length ++ payload.checksumField ++ payload

def frame (entry : LogEntry) : Except Fault Bytes :=
  let payload := entry.payload
  if payload.length < Bytes.fieldRange 4 then .ok (framed payload) else .error .frameTooLarge

/-- A number at the start of the bytes. -/
def readWord? (bytes : Bytes) : Option (Nat × Bytes) := do
  let (word, rest) ← Bytes.split? wordWidth bytes
  return (Bytes.ofLittleEndian word, rest)

/-- A byte string behind its length. -/
def readChunk? (bytes : Bytes) : Option (Bytes × Bytes) := do
  let (length, rest) ← readWord? bytes
  Bytes.split? length rest

/-- The entry a payload begins with. Bytes after it are passed over. -/
def ofPayload? (payload : Bytes) : Option LogEntry := do
  let (lsn, rest) ← readWord? payload
  let (key, rest) ← readChunk? rest
  let (value, rest) ← readChunk? rest
  let (timestamp, _) ← readWord? rest
  return { lsn := lsn.toUInt64, key, value, timestamp := timestamp.toUInt64 }

end LogEntry

/-- What stands at the start of the bytes of a log. -/
inductive FrameReading
  /-- The bytes end before the frame does. -/
  | torn
  /-- A whole frame whose checksum does not match or whose payload is no entry. -/
  | damaged
  | whole (entry : LogEntry) (rest : Bytes)
  deriving DecidableEq, Repr

namespace FrameReading

def ofBytes (bytes : Bytes) : FrameReading :=
  match Bytes.split? LogEntry.headerWidth bytes with
  | none => torn
  | some (header, body) =>
    let length := Bytes.ofLittleEndian (header.take 4)
    match Bytes.split? length body with
    | none => torn
    | some (payload, rest) =>
      if payload.checksumField = header.drop 4 then
        match LogEntry.ofPayload? payload with
        | some entry => whole entry rest
        | none => damaged
      else damaged

theorem rest_shorter {bytes rest : Bytes} {entry : LogEntry}
    (read : ofBytes bytes = whole entry rest) : rest.length < bytes.length := by
  unfold ofBytes at read
  cases headerSplit : Bytes.split? LogEntry.headerWidth bytes with
  | none => simp [headerSplit] at read
  | some headerFound =>
    obtain ⟨header, body⟩ := headerFound
    obtain ⟨content, width⟩ := Bytes.split?_eq_some_iff.mp headerSplit
    simp only [headerSplit] at read
    cases payloadSplit : Bytes.split? (Bytes.ofLittleEndian (header.take 4)) body with
    | none => simp [payloadSplit] at read
    | some payloadFound =>
      obtain ⟨payload, tail⟩ := payloadFound
      obtain ⟨bodyContent, _⟩ := Bytes.split?_eq_some_iff.mp payloadSplit
      simp only [payloadSplit] at read
      split at read
      · split at read
        · simp only [whole.injEq] at read
          rw [content, bodyContent, ← read.2]
          simp only [List.length_append, width, LogEntry.headerWidth]
          omega
        · simp at read
      · simp at read

end FrameReading

end RowStore
