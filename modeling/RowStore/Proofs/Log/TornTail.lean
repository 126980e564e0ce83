import RowStore.Proofs.Log.Recovery

namespace RowStore

variable {entry : LogEntry} {entries : List LogEntry} {part tail : Bytes} {cut count : Nat}

namespace LogEntry

/-- A frame that breaks off still states its whole length, or does not even state that. -/
theorem ofBytes_torn (fits : entry.Fits) (begins : part <+: framed entry.payload)
    (shorter : part.length < (framed entry.payload).length) :
    FrameReading.ofBytes part = .torn := by
  by_contra notTorn
  obtain ⟨checksum, payload, rest, complete⟩ :=
    FrameReading.complete_of_ofBytes_ne_torn part notTorn
  obtain ⟨missing, whole⟩ := begins
  have stated : Bytes.littleEndian 4 payload.length =
      Bytes.littleEndian 4 entry.payload.length := by
    rw [complete.content, framed] at whole
    simp only [List.append_assoc] at whole
    exact List.append_inj_left whole (by simp)
  have length : payload.length = entry.payload.length :=
    Bytes.littleEndian_inj complete.stated fits stated
  have reaches := congrArg List.length complete.content
  have width := complete.width
  simp only [List.length_append, Bytes.length_littleEndian] at reaches
  rw [length_framed, headerWidth] at shorter
  omega

/-- A cut through frames: so many are whole before it, and the tail is left of the next one. -/
structure BreaksOff (entries : List LogEntry) (cut count : Nat) (tail : Bytes) : Prop where
  bound : count ≤ entries.length
  counts : ∀ index < entries.length, (frames (entries.take (index + 1))).length ≤ cut ↔
    index < count
  split : (frames entries).take cut = frames (entries.take count) ++ tail
  stops : StopsAt tail false

theorem exists_breaksOff (fit : ∀ entry ∈ entries, entry.Fits)
    (within : cut ≤ (frames entries).length) : ∃ count tail, BreaksOff entries cut count tail := by
  -- Frame by frame: the cut lies behind the first one, or the first one is torn.
  induction entries generalizing cut with
  | nil => exact ⟨0, [], ⟨Nat.le_refl 0, nofun, by simp, stopsAt_nil⟩⟩
  | cons entry rest ih =>
      have entryFits := fit entry List.mem_cons_self
      have restFit := fun other member => fit other (List.mem_cons_of_mem entry member)
      rw [frames_cons, List.length_append] at within
      by_cases reached : (framed entry.payload).length ≤ cut
      · have inRest : cut - (framed entry.payload).length ≤ (frames rest).length := by omega
        obtain ⟨count, tail, ⟨bound, counts, split, stops⟩⟩ := ih restFit inRest
        refine ⟨count + 1, tail, ⟨Nat.succ_le_succ bound, ?_, ?_, stops⟩⟩
        · intro index inside
          rw [List.take_succ_cons, frames_cons, List.length_append]
          cases index with
          | zero => simp [reached]
          | succ index =>
              have later := counts index (Nat.lt_of_succ_lt_succ inside)
              omega
        · rw [frames_cons, List.take_append, List.take_of_length_le reached, split,
            List.take_succ_cons, frames_cons, List.append_assoc]
      · have torn : FrameReading.ofBytes ((framed entry.payload).take cut) = .torn := by
          apply ofBytes_torn entryFits (List.take_prefix _ _)
          rw [List.length_take]
          omega
        refine ⟨0, (framed entry.payload).take cut, ⟨Nat.zero_le _, ?_, ?_, torn⟩⟩
        · intro index inside
          rw [List.take_succ_cons, frames_cons, List.length_append]
          omega
        · rw [frames_cons, List.take_append_of_le_length (by omega)]
          rfl

theorem length_frames_take_le (entries : List LogEntry) {first second : Nat}
    (ordered : first ≤ second) :
    (frames (entries.take first)).length ≤ (frames (entries.take second)).length := by
  obtain ⟨between, whole⟩ := List.take_prefix_take_left (l := entries) ordered
  rw [← whole, frames_append, List.length_append]
  omega

namespace BreaksOff

theorem size (breaks : BreaksOff entries cut count tail) (within : cut ≤ (frames entries).length) :
    cut = (frames (entries.take count)).length + tail.length := by
  rw [← List.length_append, ← breaks.split, List.length_take, Nat.min_eq_left within]

/-- On a boundary nothing is left of a next frame. -/
theorem on_boundary (breaks : BreaksOff entries cut count tail)
    (within : cut ≤ (frames entries).length) {boundary : Nat} (inside : boundary ≤ entries.length)
    (same : cut = (frames (entries.take boundary)).length) : tail = [] ∧ boundary ≤ count := by
  have size := breaks.size within
  have notBeyond : boundary ≤ count := by
    by_contra beyond
    have next := length_frames_take_le entries (show count + 1 ≤ boundary by omega)
    have reached := breaks.counts count (by omega)
    omega
  have before := length_frames_take_le entries notBeyond
  exact ⟨List.length_eq_zero_iff.mp (by omega), notBeyond⟩

theorem tail_ne_nil_iff (breaks : BreaksOff entries cut count tail)
    (within : cut ≤ (frames entries).length) :
    tail ≠ [] ↔ ∀ boundary ≤ entries.length, cut ≠ (frames (entries.take boundary)).length := by
  constructor
  · intro torn boundary inside same
    exact torn (breaks.on_boundary within inside same).1
  · rintro between rfl
    exact between count breaks.bound (by simpa using breaks.size within)

end BreaksOff

end LogEntry

namespace Log

open LogEntry

theorem flatten_take_framed (entries : List LogEntry) (count : Nat) :
    ((entries.map fun entry => framed entry.payload).take count).flatten =
      frames (entries.take count) := by
  rw [← List.map_take]
  rfl

/-- From a file that breaks off, recovery returns the entries whose frames are whole and leaves
those frames. The file counts as truncated where the cut is not on a boundary, never as damaged. -/
theorem recover_torn (fit : ∀ entry ∈ entries, entry.Fits) :
    ∃ stored, entries.mapM LogEntry.frame = .ok stored ∧
      ∀ (path : String) (files : FileSystem) (cut : Nat), cut ≤ stored.flatten.length →
        files.read path = .ok (stored.flatten.take cut) →
        ∃ count summary after, count ≤ entries.length ∧
          (∀ index < entries.length, (stored.take (index + 1)).flatten.length ≤ cut ↔
            index < count) ∧
          (recover path).perform files = (.ok (entries.take count, summary), after) ∧
          summary.recovered = count ∧ summary.corrupted = 0 ∧
          (summary.truncated = true ↔
            ∀ boundary ≤ entries.length, cut ≠ (stored.take boundary).flatten.length) ∧
          after.read path = .ok (stored.take count).flatten ∧
          (cut = stored.flatten.length → count = entries.length ∧ after = files) := by
  refine ⟨_, mapM_frame fit, ?_⟩
  intro path files cut within reads
  have whole := flatten_take_framed entries entries.length
  rw [List.take_of_length_le (by simp), List.take_length] at whole
  rw [whole] at within reads
  obtain ⟨count, tail, breaks⟩ := exists_breaksOff fit within
  have kept : Records (entries.take count) (frames (entries.take count)) :=
    records_frames fun entry member => fit entry (List.mem_of_mem_take member)
  rw [breaks.split] at reads
  obtain ⟨after, recovering, left, unchanged⟩ := recover_perform reads kept breaks.stops
  refine ⟨count, _, after, breaks.bound, ?_, recovering, ?_, rfl, ?_, ?_, ?_⟩
  · simpa only [flatten_take_framed] using breaks.counts
  · simp [LogScan.summary, Nat.min_eq_left breaks.bound]
  · rw [(LogSummary.describes_summary _ breaks.stops).truncated]
    simp only [flatten_take_framed]
    exact breaks.tail_ne_nil_iff within
  · rw [left, flatten_take_framed]
  · intro full
    rw [whole] at full
    obtain ⟨none, reached⟩ := breaks.on_boundary within (Nat.le_refl entries.length)
      (by rw [List.take_length, full])
    exact ⟨Nat.le_antisymm breaks.bound reached, unchanged none⟩

def tornEntries : List LogEntry := [⟨7, [107], [118], 0⟩, ⟨8, [107], [119], 0⟩]

/-- A log that breaks off within its second frame. -/
def tornLog : FileSystem where
  nodes := Dictionary.empty.set ["log"] (.file 0)
  contents := Dictionary.empty.set 0 ((frames tornEntries).take 60)
  nextFile := 1

theorem recover_torn_second :
    (∀ entry ∈ tornEntries, entry.Fits) ∧
      tornLog.read "log" = .ok ((frames tornEntries).take 60) ∧
      ∃ summary after, (recover "log").perform tornLog =
          (.ok ([⟨7, [107], [118], 0⟩], summary), after) ∧
        summary.recovered = 1 ∧ summary.corrupted = 0 ∧ summary.truncated = true ∧
        after.read "log" = .ok (frames [⟨7, [107], [118], 0⟩]) := by
  have fit : ∀ entry ∈ tornEntries, entry.Fits := by decide
  obtain ⟨stored, framing, recovers⟩ := recover_torn fit
  rw [mapM_frame fit] at framing
  cases framing
  obtain ⟨count, summary, after, _, counts, recovering, recovered, corrupted, truncated, left, _⟩ :=
    recovers "log" tornLog 60 (by decide) rfl
  have first : 0 < count := (counts 0 (by decide)).mp (by decide)
  have noSecond : ¬ 1 < count := fun more => absurd ((counts 1 (by decide)).mpr more) (by decide)
  obtain rfl : count = 1 := by omega
  exact ⟨fit, rfl, summary, after, recovering, recovered, corrupted,
    truncated.mpr (by decide), left⟩

end Log

end RowStore
