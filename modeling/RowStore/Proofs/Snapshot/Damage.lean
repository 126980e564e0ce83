import RowStore.Proofs.Bytes.Damage
import RowStore.Proofs.Snapshot.RoundTrip

namespace RowStore

open Bytes

namespace SnapshotWriter

variable {writer written : SnapshotWriter} {files after : FileSystem} {id : FileId} {path : String}
  {entries offered : List (Bytes × Bytes)} {entry : Bytes × Bytes}

/-- Add entries in turn and go on behind those that are refused. -/
def offerAll (writer : SnapshotWriter) (offered : List (Bytes × Bytes)) : Disk SnapshotWriter :=
  offered.foldlM
    (fun writer entry => do
      match ← Disk.attempt (writer.add entry.1 entry.2) with
      | .ok written => return written
      | .error _ => return writer)
    writer

/-- The entries with lengths that fit the fields they are written to. -/
def taken (offered : List (Bytes × Bytes)) : List (Bytes × Bytes) :=
  offered.filter fun entry => entry.1.length < fieldRange 4 ∧ entry.2.length < fieldRange 4

theorem chunksFit_taken (offered : List (Bytes × Bytes)) : Snapshot.ChunksFit (taken offered) := by
  intro entry member
  simpa using (List.mem_filter.mp member).2

theorem add_refused (writer : SnapshotWriter) (files : FileSystem)
    (unfit : ¬ (entry.1.length < fieldRange 4 ∧ entry.2.length < fieldRange 4)) :
    ∃ fault, (writer.add entry.1 entry.2).perform files = (.error fault, files) := by
  by_cases keyFits : entry.1.length < fieldRange 4
  · have valueLarge : fieldRange 4 ≤ entry.2.length :=
      Nat.le_of_not_lt fun valueFits => unfit ⟨keyFits, valueFits⟩
    refine ⟨.storage (.entryTooLarge entry.2.length), ?_⟩
    simp only [add, Nat.not_le.mpr keyFits, valueLarge, if_true, if_false, Disk.perform_bind,
      Disk.perform_fail]
  · refine ⟨.storage (.entryTooLarge entry.1.length), ?_⟩
    simp only [add, Nat.le_of_not_lt keyFits, if_true, Disk.perform_bind, Disk.perform_fail]

theorem offerAll_perform (offered : List (Bytes × Bytes))
    (collects : Collects path id writer files entries) :
    ∃ written after, (writer.offerAll offered).perform files = (.ok written, after) ∧
      FileSystem.WritesOnly id files after ∧
      Collects path id written after (entries ++ taken offered) := by
  induction offered generalizing writer files entries with
  | nil =>
      refine ⟨writer, files, rfl, FileSystem.WritesOnly.refl files, ?_⟩
      simpa [taken] using collects
  | cons entry rest ih =>
      simp only [offerAll, List.foldlM_cons, Disk.perform_bind, Disk.perform_attempt]
      by_cases fits : entry.1.length < fieldRange 4 ∧ entry.2.length < fieldRange 4
      · obtain ⟨next, middle, adding, writes, nextCollects⟩ := add_perform collects fits
        obtain ⟨written, after, offering, more, writtenCollects⟩ := ih nextCollects
        refine ⟨written, after, ?_, writes.trans more, ?_⟩
        · simp only [adding, Disk.perform_pure]
          exact offering
        · have first : taken (entry :: rest) = entry :: taken rest := by simp [taken, fits]
          rw [first]
          simpa using writtenCollects
      · obtain ⟨fault, refused⟩ := add_refused writer files fits
        obtain ⟨written, after, offering, more, writtenCollects⟩ := ih collects
        refine ⟨written, after, ?_, more, ?_⟩
        · simp only [refused, Disk.perform_pure]
          exact offering
        · have first : taken (entry :: rest) = taken rest := by simp [taken, fits]
          rw [first]
          exact writtenCollects

end SnapshotWriter

namespace Snapshot

variable {entries others left right : List (Bytes × Bytes)} {bytes changed : Bytes}

/-- The bytes of a file that a snapshot writer has begun, been offered entries for, of which it took
these, and finished. -/
inductive Written (entries : List (Bytes × Bytes)) (bytes : Bytes) : Prop
  | finished {path : String} {files created filled saved : FileSystem}
      {fresh writer : SnapshotWriter} {info : SnapshotInfo} {offered : List (Bytes × Bytes)}
      (creating : (SnapshotWriter.create path).perform files = (.ok fresh, created))
      (offering : (fresh.offerAll offered).perform created = (.ok writer, filled))
      (finishing : writer.finish.perform filled = (.ok info, saved))
      (reads : saved.read path = .ok bytes) (took : entries = SnapshotWriter.taken offered)

theorem Written.eq_image (written : Written entries bytes) :
    bytes = image entries ∧ ChunksFit entries := by
  obtain ⟨creating, offering, finishing, reads, rfl⟩ := written
  obtain ⟨id, fresh, named⟩ := SnapshotWriter.create_eq_ok creating
  obtain ⟨writer, filled, offered, writes, collects⟩ := SnapshotWriter.offerAll_perform _ fresh
  rw [offered] at offering
  cases offering
  obtain ⟨-, saved⟩ := collects.finish_eq_ok (named.of_writesOnly writes) finishing
  rw [saved] at reads
  exact ⟨(Except.ok.inj reads).symm, SnapshotWriter.chunksFit_taken _⟩

/-- In an empty directory nothing is in the way of a snapshot. -/
theorem written_image (fit : ChunksFit entries) : Written entries (image entries) := by
  let opened : FileSystem := {
    nodes := Dictionary.empty.set ["a.snap.tmp"] (.file 0)
    contents := Dictionary.empty.set 0 []
    nextFile := 1 }
  have opening : FileSystem.empty.openFile (SnapshotWriter.temporaryName "a.snap") =
      .ok (0, opened) := rfl
  obtain ⟨fresh, created, creating, writes, freshCollects⟩ :=
    SnapshotWriter.create_perform opening
  obtain ⟨writer, filled, offering, more, collects⟩ :=
    SnapshotWriter.offerAll_perform entries freshCollects
  obtain ⟨full, last, content, finishing⟩ := SnapshotWriter.finish_perform collects
  have took : SnapshotWriter.taken entries = entries :=
    List.filter_eq_self.mpr fun entry member => decide_eq_true (fit entry member)
  have moves : ∃ renamed,
      full.rename (SnapshotWriter.temporaryName "a.snap") "a.snap" = .ok renamed := by
    have nodes : full.nodes = opened.nodes := ((writes.trans more).trans last).nodes
    obtain ⟨fullNodes, contents, nextFile⟩ := full
    subst nodes
    exact ⟨_, rfl⟩
  obtain ⟨renamed, moved⟩ := moves
  rw [moved] at finishing
  have named := (FileSystem.names_of_openFile opening).of_writesOnly (writes.trans more)
  obtain ⟨-, reads⟩ := collects.finish_eq_ok named finishing
  rw [List.nil_append, took] at reads
  exact .finished creating offering finishing reads took.symm

/-- A snapshot up to the bytes that fill up its footer. -/
def essence (entries : List (Bytes × Bytes)) : Bytes :=
  header entries.length ++ (block entries ++ (block entries).checksumField)

theorem image_eq_essence (entries : List (Bytes × Bytes)) :
    image entries = essence entries ++ padding := by
  simp only [image_eq, essence, List.append_assoc]

theorem Represents.exists_essence (represents : Represents entries bytes) :
    ChunksFit entries ∧ ∃ filler : Bytes, filler.length = 4 ∧ bytes = essence entries ++ filler := by
  obtain ⟨storable, filler, width, rfl⟩ := represents_iff.mp represents
  exact ⟨storable.chunks, filler, width, by simp only [essence, List.append_assoc]⟩

/-- The block settles the entries and so the header, and the checksum settles the block. -/
theorem not_differInOne_essence (fit : ChunksFit entries) (otherFit : ChunksFit others) :
    ¬ DifferInOne (essence entries) (essence others) := by
  intro differ
  have width : (block entries).length = (block others).length := by
    have whole := differ.length_eq
    simp only [essence, List.length_append, length_header, length_checksumField] at whole
    omega
  rcases differ.of_append_append (by simp) with ⟨headerDiffer, same⟩ | ⟨-, differ⟩
  · obtain ⟨blocks, -⟩ := List.append_inj same width
    have read := readBlock_block fit
    rw [blocks, readBlock_block otherFit] at read
    exact headerDiffer.ne (by rw [Except.ok.inj read])
  · rcases differ.of_append_append width with ⟨blockDiffer, checksums⟩ | ⟨blocks, checksumDiffer⟩
    · exact blockDiffer.checksumField_ne checksums
    · exact checksumDiffer.ne (by rw [blocks])

theorem not_represents_of_differInOne (fit : ChunksFit entries)
    (differ : DifferInOne (essence entries) changed) {filler : Bytes} (width : filler.length = 4) :
    ¬ Represents others (changed ++ filler) := by
  intro represents
  obtain ⟨otherFit, otherFiller, otherWidth, same⟩ := represents.exists_essence
  obtain ⟨rfl, -⟩ := List.append_inj' same (width.trans otherWidth.symm)
  exact not_differInOne_essence fit otherFit differ

/-- A changed byte makes a snapshot unreadable unless it is one of the last four, which no entry
depends on. -/
theorem load_refuses_damaged (written : Written entries bytes) (path : String)
    (files : FileSystem) :
    (∀ (position : Nat) (mask : UInt8), position + 4 < bytes.length → mask ≠ 0 →
      files.read path = .ok (bytes.modify position (· ^^^ mask)) →
      ∃ fault, (load path).perform files = (.error (.snapshot fault), files)) ∧
    ∀ filler : Bytes, filler.length = 4 → entries.length < wordLimit →
      files.read path = .ok (bytes.take (bytes.length - 4) ++ filler) →
      (load path).perform files =
        (.ok (entries, { path, entries := entries.length, size := bytes.length }), files) := by
  obtain ⟨rfl, fit⟩ := written.eq_image
  have whole := image_eq_essence entries
  have size : (image entries).length = (essence entries).length + 4 := by
    rw [whole, List.length_append]
    rfl
  constructor
  · intro position mask notLast nonzero reads
    have inside : position < (essence entries).length := by omega
    rw [whole, modify_append_left padding inside] at reads
    apply load_unrepresented reads
    intro others
    exact not_represents_of_differInOne fit (DifferInOne.modify inside nonzero) rfl
  · intro filler width few reads
    have kept : (image entries).take ((image entries).length - 4) = essence entries := by
      rw [size, Nat.add_sub_cancel, whole, List.take_left]
    rw [kept] at reads
    have represents : Represents entries (essence entries ++ filler) := by
      refine represents_iff.mpr ⟨⟨fit, few⟩, filler, width, ?_⟩
      simp only [essence, header, List.append_assoc]
    refine (load_eq_ok_iff reads).mpr ⟨represents, ?_, rfl⟩
    rw [size, List.length_append, width]

def shelfEntries : List (Bytes × Bytes) :=
  [([97], [1]), ([98], [])]

/-- A snapshot with one bit of a length in its block turned over. -/
def scratchedFile : FileSystem where
  nodes := Dictionary.empty.set ["shelf.snap"] (.file 0)
  contents := Dictionary.empty.set 0 ((image shelfEntries).modify 24 (· ^^^ 128))
  nextFile := 1

theorem load_refuses_damaged_shelf :
    Written shelfEntries (image shelfEntries) ∧
      scratchedFile.read "shelf.snap" = .ok ((image shelfEntries).modify 24 (· ^^^ 128)) ∧
      ∃ fault, (load "shelf.snap").perform scratchedFile =
        (.error (.snapshot fault), scratchedFile) := by
  have fit : ChunksFit shelfEntries := by
    unfold ChunksFit
    decide
  have written := written_image fit
  exact ⟨written, rfl, (load_refuses_damaged written "shelf.snap" scratchedFile).1 24 128
    (by decide) (by decide) rfl⟩

/-- The two lengths show where an entry ends. -/
theorem encodeEntry_append_inj {first second : Bytes × Bytes} {rest more : Bytes}
    (firstFits : first.1.length < fieldRange 4 ∧ first.2.length < fieldRange 4)
    (secondFits : second.1.length < fieldRange 4 ∧ second.2.length < fieldRange 4)
    (same : encodeEntry first ++ rest = encodeEntry second ++ more) :
    first = second ∧ rest = more := by
  obtain ⟨key, value⟩ := first
  obtain ⟨otherKey, otherValue⟩ := second
  simp only [encodeEntry_eq, List.append_assoc] at same
  obtain ⟨keyField, behindKeyField⟩ := List.append_inj same (by simp)
  obtain ⟨valueField, chunks⟩ := List.append_inj behindKeyField (by simp)
  have keyLength := littleEndian_inj firstFits.1 secondFits.1 keyField
  have valueLength := littleEndian_inj firstFits.2 secondFits.2 valueField
  obtain ⟨keys, behindKey⟩ := List.append_inj chunks keyLength
  obtain ⟨values, behind⟩ := List.append_inj behindKey valueLength
  exact ⟨Prod.ext keys values, behind⟩

/-- The number of entries shows where a block ends. -/
theorem block_append_inj {rest more : Bytes} (leftFit : ChunksFit left)
    (rightFit : ChunksFit right) (count : left.length = right.length)
    (same : block left ++ rest = block right ++ more) : left = right ∧ rest = more := by
  induction left generalizing right with
  | nil =>
      obtain rfl := List.length_eq_zero_iff.mp count.symm
      exact ⟨rfl, same⟩
  | cons first leftRest ih =>
      cases right with
      | nil => cases count
      | cons second rightRest =>
          obtain ⟨firstFits, leftRestFit⟩ := List.forall_mem_cons.mp leftFit
          obtain ⟨secondFits, rightRestFit⟩ := List.forall_mem_cons.mp rightFit
          rw [block_cons, block_cons, List.append_assoc, List.append_assoc] at same
          obtain ⟨rfl, restSame⟩ := encodeEntry_append_inj firstFits secondFits same
          obtain ⟨rfl, moreSame⟩ := ih leftRestFit rightRestFit (Nat.succ.inj count) restSame
          exact ⟨rfl, moreSame⟩

/-- No snapshot file is the beginning of another one. -/
theorem Represents.eq_of_prefix {shorter longer : Bytes} (shortRepresents : Represents left shorter)
    (longRepresents : Represents right longer) (begins : shorter <+: longer) :
    shorter = longer := by
  obtain ⟨⟨leftFit, leftFew⟩, filler, width, rfl⟩ := represents_iff.mp shortRepresents
  obtain ⟨⟨rightFit, rightFew⟩, otherFiller, otherWidth, rfl⟩ := represents_iff.mp longRepresents
  obtain ⟨more, whole⟩ := begins
  rw [List.append_assoc] at whole
  obtain ⟨headers, bodies⟩ := List.append_inj whole (by simp)
  have countFields : countField left.length = countField right.length :=
    List.append_cancel_left headers
  have count := littleEndian_inj leftFew rightFew countFields
  rw [List.append_assoc] at bodies
  obtain ⟨rfl, footers⟩ := block_append_inj leftFit rightFit count bodies
  have footerLength := congrArg List.length footers
  simp only [List.length_append, length_checksumField, width, otherWidth] at footerLength
  obtain rfl : more = [] := List.length_eq_zero_iff.mp (by omega)
  rw [← footers, List.append_nil]

/-- A snapshot that has been cut short or that anything has been appended to cannot be read, as long
as its entries are no more than its count can say. -/
theorem load_refuses_other_length (written : Written entries bytes)
    (few : entries.length < wordLimit) (path : String) (files : FileSystem) (other : Bytes)
    (resized : other <+: bytes ∨ bytes <+: other) (different : other ≠ bytes)
    (reads : files.read path = .ok other) :
    ∃ fault, (load path).perform files = (.error (.snapshot fault), files) := by
  obtain ⟨rfl, fit⟩ := written.eq_image
  have original := represents_image ⟨fit, few⟩
  apply load_unrepresented reads
  intro others represents
  rcases resized with shorter | longer
  · exact different (represents.eq_of_prefix original shorter)
  · exact different (original.eq_of_prefix represents longer).symm

/-- The beginning of a block, up to a value of eight bytes. -/
def decoyStart : Bytes :=
  littleEndian 4 1 ++ littleEndian 4 8 ++ [97]

/-- An entry whose value looks like the footer of what stands before it. -/
def decoyEntries : List (Bytes × Bytes) :=
  [([97], decoyStart.checksumField ++ padding)]

/-- The snapshot of that entry, cut so that the value stands where the footer should. -/
def decoyBytes : Bytes :=
  header 1 ++ (decoyStart ++ (decoyStart.checksumField ++ padding))

def decoyFile : FileSystem where
  nodes := Dictionary.empty.set ["decoy.snap"] (.file 0)
  contents := Dictionary.empty.set 0 decoyBytes
  nextFile := 1

theorem load_refuses_other_length_decoy :
    Written decoyEntries (image decoyEntries) ∧ decoyEntries.length < wordLimit ∧
      decoyFile.read "decoy.snap" = .ok decoyBytes ∧ decoyBytes <+: image decoyEntries ∧
      ∃ fault, (load "decoy.snap").perform decoyFile = (.error (.snapshot fault), decoyFile) := by
  have fit : ChunksFit decoyEntries := by
    unfold ChunksFit
    decide
  have written := written_image fit
  have shorter : decoyBytes <+: image decoyEntries :=
    ⟨(block decoyEntries).checksumField ++ padding, rfl⟩
  have different : decoyBytes ≠ image decoyEntries :=
    fun same => absurd (congrArg List.length same) (by decide)
  exact ⟨written, by decide, rfl, shorter,
    load_refuses_other_length written (by decide) "decoy.snap" decoyFile _ (.inl shorter)
      different rfl⟩

end Snapshot

end RowStore
