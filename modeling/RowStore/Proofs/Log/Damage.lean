import RowStore.Proofs.Bytes.Damage
import RowStore.Proofs.Log.TornTail

namespace RowStore

open Bytes LogEntry

variable {entries : List LogEntry} {changed payload : Bytes} {index offset : Nat} {mask : UInt8}

/-- The checksum covers the payload and not itself, so a change to either sets them apart. -/
theorem FrameReading.beginsDamaged_of_differInOne (stated : payload.length < fieldRange 4)
    (differ : DifferInOne (payload.checksumField ++ payload) changed) (rest : Bytes) :
    BeginsDamaged (littleEndian 4 payload.length ++ (changed ++ rest)) := by
  rcases differ.of_append with ⟨checksum, checksumDiffer, rfl⟩ | ⟨other, payloadDiffer, rfl⟩
  · refine ⟨checksum, payload, rest, ⟨by simp only [List.append_assoc], stated, ?_⟩, Or.inl ?_⟩
    · rw [← checksumDiffer.length_eq, length_checksumField]
    · exact checksumDiffer.ne.symm
  · refine ⟨payload.checksumField, other, rest, ⟨?_, ?_, length_checksumField payload⟩, Or.inl ?_⟩
    · rw [payloadDiffer.length_eq]
      simp only [List.append_assoc]
    · rwa [← payloadDiffer.length_eq]
    · exact payloadDiffer.checksumField_ne

namespace Log

/-- Behind its length, the frame of an entry is checksum and payload. -/
theorem frames_modify (inside : index < entries.length) (behindLength : 4 ≤ offset)
    (inFrame : offset < (framed entries[index].payload).length) (nonzero : mask ≠ 0) :
    ∃ changed, DifferInOne (entries[index].payload.checksumField ++ entries[index].payload)
        changed ∧
      (frames entries).modify ((frames (entries.take index)).length + offset) (· ^^^ mask) =
        frames (entries.take index) ++ (littleEndian 4 entries[index].payload.length ++
          (changed ++ frames (entries.drop (index + 1)))) := by
  let payload := entries[index].payload
  let before := frames (entries.take index) ++ littleEndian 4 payload.length
  let body := payload.checksumField ++ payload
  have inBody : offset - 4 < body.length := by
    rw [length_framed, headerWidth] at inFrame
    simp only [body, List.length_append, length_checksumField, payload]
    omega
  have position : (frames (entries.take index)).length + offset = before.length + (offset - 4) := by
    simp only [before, List.length_append, length_littleEndian]
    omega
  have whole : frames entries = before ++ (body ++ frames (entries.drop (index + 1))) := by
    calc frames entries
      _ = frames (entries.take index ++ entries[index] :: entries.drop (index + 1)) := by
        rw [← List.drop_eq_getElem_cons inside, List.take_append_drop]
      _ = before ++ (body ++ frames (entries.drop (index + 1))) := by
        rw [frames_append, frames_cons, framed]
        simp only [before, body, payload, List.append_assoc]
  refine ⟨body.modify (offset - 4) (· ^^^ mask), DifferInOne.modify inBody nonzero, ?_⟩
  rw [whole, position, modify_middle before _ inBody]
  simp only [before, payload, List.append_assoc]

/-- Where one byte of the checksum or the payload of a frame has been changed, recovery returns the
entries before that frame and leaves their frames, and counts the frame as damaged. -/
theorem recover_damaged (fit : ∀ entry ∈ entries, entry.Fits) :
    ∃ stored, entries.mapM LogEntry.frame = .ok stored ∧ stored.length = entries.length ∧
      ∀ (path : String) (files : FileSystem) (index offset : Nat) (mask : UInt8)
        (inside : index < stored.length), 4 ≤ offset → offset < stored[index].length → mask ≠ 0 →
        files.read path = .ok (stored.flatten.modify
          ((stored.take index).flatten.length + offset) (· ^^^ mask)) →
        ∃ summary after, (recover path).perform files = (.ok (entries.take index, summary), after) ∧
          summary.recovered = index ∧ summary.corrupted = 1 ∧ summary.truncated = true ∧
          after.read path = .ok (stored.take index).flatten := by
  refine ⟨_, mapM_frame fit, List.length_map _, ?_⟩
  intro path files index offset mask inside behindLength inFrame nonzero reads
  rw [List.length_map] at inside
  rw [List.getElem_map] at inFrame
  have joined : (entries.map fun entry => framed entry.payload).flatten = frames entries := rfl
  rw [joined, flatten_take_framed] at reads
  obtain ⟨changed, differ, altered⟩ := frames_modify inside behindLength inFrame nonzero
  have damaged := FrameReading.beginsDamaged_of_differInOne
    (fit _ (List.getElem_mem inside)) differ (frames (entries.drop (index + 1)))
  have stops : StopsAt _ true := FrameReading.ofBytes_eq_damaged_iff.mpr damaged
  have kept : Records (entries.take index) (frames (entries.take index)) :=
    records_frames fun entry member => fit entry (List.mem_of_mem_take member)
  rw [altered] at reads
  obtain ⟨after, recovering, left, -⟩ := recover_perform reads kept stops
  refine ⟨_, after, recovering, ?_, rfl, ?_, ?_⟩
  · simp [LogScan.summary, Nat.min_eq_left (Nat.le_of_lt inside)]
  · rw [(LogSummary.describes_summary _ stops).truncated]
    rintro none
    have length := congrArg List.length none
    simp at length
  · rw [left, flatten_take_framed]

def scratchedEntries : List LogEntry :=
  [⟨7, [107], [118], 0⟩, ⟨8, [107], [119], 0⟩, ⟨9, [108], [118], 0⟩]

/-- A log with one bit of its second payload turned over. -/
def scratchedLog : FileSystem where
  nodes := Dictionary.empty.set ["log"] (.file 0)
  contents := Dictionary.empty.set 0 ((frames scratchedEntries).modify 60 (· ^^^ 16))
  nextFile := 1

theorem recover_damaged_second :
    (∀ entry ∈ scratchedEntries, entry.Fits) ∧
      scratchedLog.read "log" = .ok ((frames scratchedEntries).modify 60 (· ^^^ 16)) ∧
      ∃ summary after, (recover "log").perform scratchedLog =
          (.ok ([⟨7, [107], [118], 0⟩], summary), after) ∧
        summary.recovered = 1 ∧ summary.corrupted = 1 ∧ summary.truncated = true ∧
        after.read "log" = .ok (frames [⟨7, [107], [118], 0⟩]) := by
  have fit : ∀ entry ∈ scratchedEntries, entry.Fits := by decide
  obtain ⟨stored, framing, -, recovers⟩ := recover_damaged fit
  rw [mapM_frame fit] at framing
  cases framing
  exact ⟨fit, rfl,
    recovers "log" scratchedLog 1 18 16 (by decide) (by decide) (by decide) (by decide) rfl⟩

end Log

end RowStore
