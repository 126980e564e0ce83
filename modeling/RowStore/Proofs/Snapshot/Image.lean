import RowStore.Snapshot.Image

namespace RowStore.Snapshot

variable {entries : List (Bytes × Bytes)} {key value : Bytes}

/-- Keys and values whose lengths fit the fields they are written to. -/
def ChunksFit (entries : List (Bytes × Bytes)) : Prop :=
  ∀ entry ∈ entries, entry.1.length < Bytes.fieldRange 4 ∧ entry.2.length < Bytes.fieldRange 4

structure Storable (entries : List (Bytes × Bytes)) : Prop where
  chunks : ChunksFit entries
  count : entries.length < Bytes.fieldRange 8

theorem encodeEntry_eq (key value : Bytes) :
    encodeEntry (key, value) = Bytes.littleEndian 4 key.length ++
      (Bytes.littleEndian 4 value.length ++ (key ++ value)) := by
  simp [encodeEntry, entryPieces]

theorem block_cons (entry : Bytes × Bytes) (entries : List (Bytes × Bytes)) :
    block (entry :: entries) = encodeEntry entry ++ block entries := rfl

@[simp] theorem block_append (first second : List (Bytes × Bytes)) :
    block (first ++ second) = block first ++ block second :=
  List.flatMap_append

theorem block_singleton (entry : Bytes × Bytes) : block [entry] = encodeEntry entry := by
  simp [block]

/-- One step of reading, without the evidence that the recursion ends. -/
theorem readBlockAfter_eq (earlier : List (Bytes × Bytes)) (bytes : Bytes) :
    readBlockAfter earlier bytes =
      if bytes.isEmpty then .ok earlier.reverse
      else
        match Bytes.split? 8 bytes with
        | none => .error .truncatedHeader
        | some (lengths, rest) =>
          let keyLength := Bytes.ofLittleEndian (lengths.take 4)
          match Bytes.split? (keyLength + Bytes.ofLittleEndian (lengths.drop 4)) rest with
          | none => .error .truncatedBody
          | some (body, rest) =>
            readBlockAfter ((body.take keyLength, body.drop keyLength) :: earlier) rest := by
  rw [readBlockAfter]
  cases header : Bytes.split? 8 bytes with
  | none => simp only
  | some found =>
      obtain ⟨lengths, rest⟩ := found
      simp only
      cases split : Bytes.split? (Bytes.ofLittleEndian (lengths.take 4) +
          Bytes.ofLittleEndian (lengths.drop 4)) rest with
      | none => simp only
      | some found => simp only

/-- Reading takes one entry off the front of a block. -/
theorem readBlockAfter_encodeEntry (earlier : List (Bytes × Bytes))
    (keyBound : key.length < Bytes.fieldRange 4) (valueBound : value.length < Bytes.fieldRange 4)
    (rest : Bytes) :
    readBlockAfter earlier (encodeEntry (key, value) ++ rest) =
      readBlockAfter ((key, value) :: earlier) rest := by
  let lengths := Bytes.littleEndian 4 key.length ++ Bytes.littleEndian 4 value.length
  have lengthsWidth : lengths.length = 8 := by simp [lengths]
  have whole : encodeEntry (key, value) ++ rest = lengths ++ ((key ++ value) ++ rest) := by
    simp [encodeEntry_eq, lengths]
  have keyLength : Bytes.ofLittleEndian (lengths.take 4) = key.length := by
    rw [List.take_left' (Bytes.length_littleEndian 4 _)]
    exact Bytes.ofLittleEndian_littleEndian_of_lt keyBound
  have valueLength : Bytes.ofLittleEndian (lengths.drop 4) = value.length := by
    rw [List.drop_left' (Bytes.length_littleEndian 4 _)]
    exact Bytes.ofLittleEndian_littleEndian_of_lt valueBound
  have lengthsSplit := Bytes.split?_append_of_length ((key ++ value) ++ rest) lengthsWidth
  have bodySplit := Bytes.split?_append_of_length rest
    (List.length_append : (key ++ value).length = key.length + value.length)
  have nonempty : ¬ (lengths ++ ((key ++ value) ++ rest)).isEmpty = true := by
    rw [List.isEmpty_iff, ← Ne, ← List.length_pos_iff, List.length_append, lengthsWidth]
    omega
  rw [whole, readBlockAfter_eq, if_neg nonempty]
  simp only [lengthsSplit, keyLength, valueLength, bodySplit, List.take_left, List.drop_left]

theorem readBlock_block (chunks : ChunksFit entries) :
    readBlock (block entries) = .ok entries := by
  suffices passed : ∀ earlier,
      readBlockAfter earlier (block entries) = .ok (earlier.reverse ++ entries) by
    exact passed []
  induction entries with
  | nil =>
      intro earlier
      rw [block, List.flatMap_nil, readBlockAfter]
      simp
  | cons entry rest ih =>
      intro earlier
      have entryBound := chunks entry List.mem_cons_self
      have restBound := fun other member => chunks other (List.mem_cons_of_mem entry member)
      rw [block_cons, readBlockAfter_encodeEntry earlier entryBound.1 entryBound.2, ih restBound]
      simp

/-- The header of a snapshot of so many entries. -/
def header (count : Nat) : Bytes :=
  magic ++ versionField ++ countField count

@[simp] theorem length_header (count : Nat) : (header count).length = headerWidth := by
  simp [header, magic, versionField, countField, headerWidth]

theorem image_eq (entries : List (Bytes × Bytes)) :
    image entries = header entries.length ++
      (block entries ++ ((block entries).checksumField ++ padding)) := by
  simp [image, header]

/-- Header and footer have their widths whatever the entries, so that equal files have equal
blocks. -/
theorem image_inj {others : List (Bytes × Bytes)} (fit : ChunksFit entries)
    (otherFit : ChunksFit others) : image entries = image others ↔ entries = others := by
  refine ⟨fun same => ?_, congrArg image⟩
  rw [image_eq, image_eq] at same
  have width := congrArg List.length same
  simp only [List.length_append, length_header, Bytes.length_checksumField] at width
  obtain ⟨-, behindHeader⟩ := List.append_inj same (by simp)
  obtain ⟨blocks, -⟩ := List.append_inj behindHeader (by omega)
  have read := readBlock_block fit
  rw [blocks, readBlock_block otherFit] at read
  exact (Except.ok.inj read).symm

/-- The fields of a file that is long enough to be a snapshot. -/
structure Parts where
  magic : Bytes
  version : Bytes
  count : Bytes
  data : Bytes
  checksum : Bytes
  padding : Bytes

namespace Parts

def joined (parts : Parts) : Bytes :=
  parts.magic ++ (parts.version ++ (parts.count ++
    (parts.data ++ (parts.checksum ++ parts.padding))))

structure Sized (parts : Parts) : Prop where
  magic : parts.magic.length = 4
  version : parts.version.length = 2
  count : parts.count.length = 8
  checksum : parts.checksum.length = 4
  padding : parts.padding.length = 4

/-- Parsing looks at one field after the other. -/
theorem Sized.parse_joined {parts : Parts} (sized : parts.Sized) (path : String) :
    parse path parts.joined =
      if parts.magic ≠ Snapshot.magic then .error (.wrongMagic parts.magic)
      else if Bytes.ofLittleEndian parts.version ≠ Snapshot.version then
        .error (.unsupportedVersion (Bytes.ofLittleEndian parts.version))
      else if parts.data.checksumField ≠ parts.checksum then .error (.checksumMismatch path)
      else
        match readBlock parts.data with
        | .error fault => .error fault
        | .ok entries =>
          if entries.length ≠ Bytes.ofLittleEndian parts.count then
            .error (.countMismatch (Bytes.ofLittleEndian parts.count) entries.length)
          else .ok entries := by
  obtain ⟨magicWidth, versionWidth, countWidth, checksumWidth, paddingWidth⟩ := sized
  have longEnough : ¬ parts.joined.length < headerWidth + footerWidth := by
    simp only [joined, List.length_append, headerWidth, footerWidth]
    omega
  have magicRead : parts.joined.take 4 = parts.magic := List.take_left' magicWidth
  have versionRead : (parts.joined.drop 4).take 2 = parts.version := by
    rw [joined, List.drop_left' magicWidth, List.take_left' versionWidth]
  have countRead : (parts.joined.drop countOffset).take 8 = parts.count := by
    have width : (parts.magic ++ parts.version).length = countOffset := by
      rw [List.length_append, magicWidth, versionWidth, countOffset]
    rw [joined, ← List.append_assoc, List.drop_left' width, List.take_left' countWidth]
  have body : parts.joined.drop headerWidth = parts.data ++ (parts.checksum ++ parts.padding) := by
    have width : (parts.magic ++ parts.version ++ parts.count).length = headerWidth := by
      rw [List.length_append, List.length_append, magicWidth, versionWidth, countWidth, headerWidth]
    rw [joined, ← List.append_assoc, ← List.append_assoc, List.drop_left' width]
  have dataWidth : (parts.data ++ (parts.checksum ++ parts.padding)).length - footerWidth =
      parts.data.length := by
    simp only [List.length_append, checksumWidth, paddingWidth, footerWidth]
    omega
  have checksumRead : (parts.checksum ++ parts.padding).take 4 = parts.checksum :=
    List.take_left' checksumWidth
  simp only [parse, if_neg longEnough, magicRead, versionRead, countRead, body, dataWidth,
    List.take_left, List.drop_left, checksumRead]
  cases readBlock parts.data <;>
    simp [bind, Except.bind, pure, Except.pure, throw, throwThe, MonadExceptOf.throw]

end Parts

/-- The bytes that fill up the footer can be any. -/
theorem parse_padded (path : String) (storable : Storable entries) {filler : Bytes}
    (width : filler.length = 4) :
    parse path (header entries.length ++
      (block entries ++ ((block entries).checksumField ++ filler))) = .ok entries := by
  let parts : Parts := ⟨magic, versionField, countField entries.length, block entries,
    (block entries).checksumField, filler⟩
  have sized : parts.Sized := ⟨rfl, Bytes.length_littleEndian 2 _, Bytes.length_littleEndian 8 _,
    Bytes.length_checksumField _, width⟩
  have whole : header entries.length ++
      (block entries ++ ((block entries).checksumField ++ filler)) = parts.joined := by
    simp only [header, parts, Parts.joined, List.append_assoc]
  have versionRead : Bytes.ofLittleEndian versionField = version := by decide
  have countRead : Bytes.ofLittleEndian (countField entries.length) = entries.length :=
    Bytes.ofLittleEndian_littleEndian_of_lt storable.count
  rw [whole, sized.parse_joined]
  simp only [parts, versionRead, countRead, readBlock_block storable.chunks, ne_eq,
    not_true_eq_false, if_false]

theorem parse_image (path : String) (storable : Storable entries) :
    parse path (image entries) = .ok entries := by
  rw [image_eq]
  exact parse_padded path storable rfl

end RowStore.Snapshot
