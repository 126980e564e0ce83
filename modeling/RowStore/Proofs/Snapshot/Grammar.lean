import RowStore.Proofs.Snapshot.Image

/-!
What any bytes are as a snapshot. The form of a snapshot file is said in full, without the writer;
parsing accepts the files of this form and no others, and finds the entries they were made from.
-/

namespace RowStore.Snapshot

variable {bytes data : Bytes} {path : String} {entries earlier : List (Bytes × Bytes)}

/-- Where a block begins with the two lengths, the key and the value, it begins with an entry. -/
theorem encodeEntry_of_split {lengths rest body more : Bytes}
    (header : Bytes.split? 8 bytes = some (lengths, rest))
    (split : Bytes.split? (Bytes.ofLittleEndian (lengths.take 4) +
      Bytes.ofLittleEndian (lengths.drop 4)) rest = some (body, more)) :
    let key := body.take (Bytes.ofLittleEndian (lengths.take 4))
    let value := body.drop (Bytes.ofLittleEndian (lengths.take 4))
    bytes = encodeEntry (key, value) ++ more ∧ key.length < Bytes.fieldRange 4 ∧
      value.length < Bytes.fieldRange 4 := by
  intro key value
  obtain ⟨rfl, width⟩ := Bytes.split?_eq_some_iff.mp header
  obtain ⟨rfl, length⟩ := Bytes.split?_eq_some_iff.mp split
  have keyWidth : (lengths.take 4).length = 4 := by simp [width]
  have valueWidth : (lengths.drop 4).length = 4 := by simp [width]
  have keyField := Bytes.littleEndian_ofLittleEndian (lengths.take 4)
  have valueField := Bytes.littleEndian_ofLittleEndian (lengths.drop 4)
  have keyBound := Bytes.ofLittleEndian_lt (lengths.take 4)
  have valueBound := Bytes.ofLittleEndian_lt (lengths.drop 4)
  rw [keyWidth] at keyField keyBound
  rw [valueWidth] at valueField valueBound
  have keyLength : key.length = Bytes.ofLittleEndian (lengths.take 4) := by
    simp only [key, List.length_take]
    omega
  have valueLength : value.length = Bytes.ofLittleEndian (lengths.drop 4) := by
    simp only [value, List.length_drop]
    omega
  refine ⟨?_, by rwa [keyLength], by rwa [valueLength]⟩
  calc lengths ++ (body ++ more)
    _ = (lengths.take 4 ++ lengths.drop 4) ++ ((key ++ value) ++ more) := by
      rw [List.take_append_drop, List.take_append_drop]
    _ = encodeEntry (key, value) ++ more := by
      rw [encodeEntry_eq, keyLength, valueLength, keyField, valueField]
      simp only [List.append_assoc]

theorem block_of_readBlockAfter (read : readBlockAfter earlier bytes = .ok entries) :
    ∃ later, entries = earlier.reverse ++ later ∧ ChunksFit later ∧ bytes = block later := by
  induction earlier, bytes using readBlockAfter.induct with
  | case1 earlier bytes empty =>
      rw [readBlockAfter_eq, if_pos empty] at read
      cases read
      exact ⟨[], (List.append_nil _).symm, nofun, List.isEmpty_iff.mp empty⟩
  | case2 earlier bytes nonempty noHeader =>
      rw [readBlockAfter_eq, if_neg nonempty, noHeader] at read
      cases read
  | case3 earlier bytes nonempty lengths rest header keyLength valueLength noBody =>
      rw [readBlockAfter_eq, if_neg nonempty] at read
      simp only [header] at read
      rw [noBody] at read
      cases read
  | case4 earlier bytes nonempty lengths rest header keyLength valueLength body more split ih =>
      obtain ⟨content, keyBound, valueBound⟩ := encodeEntry_of_split header split
      rw [content, readBlockAfter_encodeEntry earlier keyBound valueBound] at read
      obtain ⟨later, whole, fit, rfl⟩ := ih read
      refine ⟨(body.take keyLength, body.drop keyLength) :: later, ?_, ?_, content⟩
      · rw [whole, List.reverse_cons, List.append_assoc, List.singleton_append]
      · exact List.forall_mem_cons.mpr ⟨⟨keyBound, valueBound⟩, fit⟩

theorem readBlock_eq_ok_iff :
    readBlock data = .ok entries ↔ ChunksFit entries ∧ data = block entries := by
  constructor
  · intro read
    obtain ⟨later, rfl, fit, rfl⟩ := block_of_readBlockAfter read
    exact ⟨fit, rfl⟩
  · rintro ⟨fit, rfl⟩
    exact readBlock_block fit

theorem exists_parts (long : headerWidth + footerWidth ≤ bytes.length) :
    ∃ parts : Parts, parts.Sized ∧ parts.joined = bytes := by
  let versioned := bytes.drop 4
  let counted := versioned.drop 2
  let behind := counted.drop 8
  let footer := behind.drop (behind.length - footerWidth)
  refine ⟨⟨bytes.take 4, versioned.take 2, counted.take 8,
    behind.take (behind.length - footerWidth), footer.take 4, footer.drop 4⟩, ?_, ?_⟩
  · simp only [headerWidth, footerWidth] at long
    constructor <;>
      simp only [versioned, counted, behind, footer, footerWidth, List.length_take,
        List.length_drop] <;>
      omega
  · simp only [Parts.joined, versioned, counted, behind, footer, List.take_append_drop]

/-- The bytes of a snapshot file of these entries. -/
def Represents (entries : List (Bytes × Bytes)) (bytes : Bytes) : Prop :=
  Storable entries ∧ ∃ block filler : Bytes,
    block = entries.flatMap (fun entry =>
      Bytes.littleEndian 4 entry.1.length ++ Bytes.littleEndian 4 entry.2.length ++
        entry.1 ++ entry.2) ∧
    filler.length = 4 ∧
    -- The text `BTDB`, version 1, and the count.
    bytes = [0x42, 0x54, 0x44, 0x42] ++ Bytes.littleEndian 2 1 ++
      Bytes.littleEndian 8 entries.length ++ block ++
      Bytes.littleEndian 4 block.checksum.toNat ++ filler

theorem block_eq (entries : List (Bytes × Bytes)) :
    block entries = entries.flatMap fun entry =>
      Bytes.littleEndian 4 entry.1.length ++ Bytes.littleEndian 4 entry.2.length ++
        entry.1 ++ entry.2 := by
  have pieces : encodeEntry = fun entry : Bytes × Bytes =>
      Bytes.littleEndian 4 entry.1.length ++ Bytes.littleEndian 4 entry.2.length ++
        entry.1 ++ entry.2 := by
    funext entry
    rw [encodeEntry_eq]
    simp only [List.append_assoc]
  rw [block, pieces]

theorem represents_iff :
    Represents entries bytes ↔ Storable entries ∧ ∃ filler : Bytes, filler.length = 4 ∧
      bytes = header entries.length ++
        (block entries ++ ((block entries).checksumField ++ filler)) := by
  have whole : ∀ filler : Bytes, header entries.length ++
      (block entries ++ ((block entries).checksumField ++ filler)) =
        [0x42, 0x54, 0x44, 0x42] ++ Bytes.littleEndian 2 1 ++
          Bytes.littleEndian 8 entries.length ++ block entries ++
          Bytes.littleEndian 4 (block entries).checksum.toNat ++ filler := by
    intro filler
    simp only [header, magic, versionField, version, countField, Bytes.checksumField,
      List.append_assoc]
  constructor
  · rintro ⟨storable, found, filler, rfl, width, rfl⟩
    exact ⟨storable, filler, width, by rw [whole, block_eq]⟩
  · rintro ⟨storable, filler, width, rfl⟩
    exact ⟨storable, block entries, filler, block_eq entries, width, whole filler⟩

theorem represents_image (storable : Storable entries) : Represents entries (image entries) :=
  represents_iff.mpr ⟨storable, padding, rfl, image_eq entries⟩

theorem Parts.Sized.parse_eq_ok_iff {parts : Parts} (sized : parts.Sized) (path : String) :
    parse path parts.joined = .ok entries ↔
      parts.magic = Snapshot.magic ∧ Bytes.ofLittleEndian parts.version = Snapshot.version ∧
        parts.data.checksumField = parts.checksum ∧ readBlock parts.data = .ok entries ∧
        entries.length = Bytes.ofLittleEndian parts.count := by
  rw [sized.parse_joined]
  cases readBlock parts.data with
  | error fault => grind
  | ok found => grind

theorem parse_eq_ok_iff (path : String) :
    parse path bytes = .ok entries ↔ Represents entries bytes := by
  rw [represents_iff]
  constructor
  · intro parsed
    have long : headerWidth + footerWidth ≤ bytes.length := by
      apply Nat.le_of_not_lt
      intro short
      have refused : parse path bytes = .error (.tooShort path bytes.length) := by
        rw [parse, if_pos short]
        rfl
      rw [refused] at parsed
      cases parsed
    obtain ⟨parts, sized, rfl⟩ := exists_parts long
    obtain ⟨magicRead, versionRead, checksumRead, blockRead, countRead⟩ :=
      (sized.parse_eq_ok_iff path).mp parsed
    obtain ⟨fit, dataRead⟩ := readBlock_eq_ok_iff.mp blockRead
    have versionBytes := Bytes.littleEndian_ofLittleEndian parts.version
    have countBytes := Bytes.littleEndian_ofLittleEndian parts.count
    have countBound := Bytes.ofLittleEndian_lt parts.count
    rw [sized.version, versionRead] at versionBytes
    rw [sized.count, ← countRead] at countBytes countBound
    refine ⟨⟨fit, countBound⟩, parts.padding, sized.padding, ?_⟩
    calc parts.joined
      _ = magic ++ (versionField ++ (countField entries.length ++
          (parts.data ++ (parts.checksum ++ parts.padding)))) := by
        rw [Parts.joined, magicRead, ← versionBytes, ← countBytes, versionField, countField]
      _ = header entries.length ++ (block entries ++
          ((block entries).checksumField ++ parts.padding)) := by
        rw [← checksumRead, dataRead, header]
        simp only [List.append_assoc]
  · rintro ⟨storable, filler, width, rfl⟩
    exact parse_padded path storable width

end RowStore.Snapshot
