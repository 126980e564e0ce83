import RowStore.Log.Recovery

/-!
Reading back what a log is made of. A frame followed by anything is read as its entry and what
follows it, so that a scan of whole frames finds their entries and goes on behind them.
-/

namespace RowStore

namespace LogEntry

/-- Whether the payload of an entry has a length that a frame can state. -/
def Fits (entry : LogEntry) : Prop :=
  entry.payload.length < Bytes.fieldRange 4

instance (entry : LogEntry) : Decidable entry.Fits :=
  inferInstanceAs (Decidable (_ < _))

theorem length_payload (entry : LogEntry) : entry.payload.length = 32 + entry.weight := by
  simp only [payload, weight, List.length_append, Bytes.length_littleEndian, wordWidth]
  omega

theorem fits_iff (entry : LogEntry) : entry.Fits ↔ 32 + entry.weight < Bytes.fieldRange 4 := by
  rw [Fits, length_payload]

theorem Fits.chunks {entry : LogEntry} (fits : entry.Fits) :
    entry.key.length < Bytes.fieldRange 4 ∧ entry.value.length < Bytes.fieldRange 4 := by
  have bound := entry.fits_iff.mp fits
  simp only [weight] at bound
  omega

theorem frame_of_fits {entry : LogEntry} (fits : entry.Fits) :
    entry.frame = .ok (framed entry.payload) :=
  if_pos fits

/-- The frames of several entries, one behind the other. -/
def frames (entries : List LogEntry) : Bytes :=
  entries.flatMap fun entry => framed entry.payload

@[simp] theorem frames_nil : frames [] = [] := rfl

theorem frames_cons (entry : LogEntry) (entries : List LogEntry) :
    frames (entry :: entries) = framed entry.payload ++ frames entries := rfl

@[simp] theorem frames_append (first second : List LogEntry) :
    frames (first ++ second) = frames first ++ frames second :=
  List.flatMap_append

theorem mapM_frame {entries : List LogEntry} (fit : ∀ entry ∈ entries, entry.Fits) :
    entries.mapM frame = .ok (entries.map fun entry => framed entry.payload) := by
  induction entries with
  | nil => rfl
  | cons entry rest ih =>
      have restFrames := ih fun other member => fit other (List.mem_cons_of_mem entry member)
      rw [List.mapM_cons, frame_of_fits (fit entry List.mem_cons_self), restFrames]
      rfl

theorem frames_singleton (entry : LogEntry) : frames [entry] = framed entry.payload := by
  simp [frames]

theorem length_framed (payload : Bytes) :
    (framed payload).length = headerWidth + payload.length := by
  simp only [framed, List.length_append, Bytes.length_littleEndian, Bytes.length_checksumField,
    headerWidth]

theorem length_frames (entries : List LogEntry) :
    (frames entries).length = total (fun entry => headerWidth + 32 + entry.weight) entries := by
  induction entries with
  | nil => rfl
  | cons entry rest ih =>
      rw [frames_cons, List.length_append, length_framed, length_payload, ih, total_cons]
      omega

theorem frames_eq_nil_iff {entries : List LogEntry} : frames entries = [] ↔ entries = [] := by
  cases entries with
  | nil => simp
  | cons entry rest =>
      refine iff_of_false (fun none => ?_) (List.cons_ne_nil entry rest)
      have length := congrArg List.length none
      rw [length_frames, total_cons, List.length_nil] at length
      omega

section

variable {entry : LogEntry} {bytes rest payload : Bytes}

theorem readWord?_append {number : Nat} (bound : number < Bytes.fieldRange wordWidth)
    (rest : Bytes) :
    readWord? (Bytes.littleEndian wordWidth number ++ rest) = some (number, rest) := by
  have split := Bytes.split?_append_of_length rest (Bytes.length_littleEndian wordWidth number)
  simp [readWord?, split, Bytes.ofLittleEndian_littleEndian_of_lt bound]

theorem readWord?_eq_some_iff {word : Nat} :
    readWord? bytes = some (word, rest) ↔
      bytes = Bytes.littleEndian wordWidth word ++ rest ∧ word < Bytes.fieldRange wordWidth := by
  constructor
  · intro read
    cases split : Bytes.split? wordWidth bytes with
    | none => simp [readWord?, split] at read
    | some found =>
        obtain ⟨field, tail⟩ := found
        obtain ⟨whole, width⟩ := Bytes.split?_eq_some_iff.mp split
        simp only [readWord?, split, Option.bind_eq_bind, Option.bind_some, Option.pure_def,
          Option.some.injEq, Prod.mk.injEq] at read
        obtain ⟨rfl, rfl⟩ := read
        rw [← width, Bytes.littleEndian_ofLittleEndian]
        exact ⟨whole, Bytes.ofLittleEndian_lt field⟩
  · rintro ⟨rfl, bound⟩
    exact readWord?_append bound rest

theorem readChunk?_append {chunk : Bytes} (bound : chunk.length < Bytes.fieldRange wordWidth)
    (rest : Bytes) :
    readChunk? (Bytes.littleEndian wordWidth chunk.length ++ (chunk ++ rest)) =
      some (chunk, rest) := by
  simp [readChunk?, readWord?_append bound, Bytes.split?_append]

theorem readChunk?_eq_some_iff {chunk : Bytes} :
    readChunk? bytes = some (chunk, rest) ↔
      bytes = Bytes.littleEndian wordWidth chunk.length ++ (chunk ++ rest) ∧
        chunk.length < Bytes.fieldRange wordWidth := by
  constructor
  · intro read
    cases lengthRead : readWord? bytes with
    | none => simp [readChunk?, lengthRead] at read
    | some found =>
        obtain ⟨length, tail⟩ := found
        obtain ⟨whole, bound⟩ := readWord?_eq_some_iff.mp lengthRead
        simp only [readChunk?, lengthRead, Option.bind_eq_bind, Option.bind_some] at read
        obtain ⟨rfl, rfl⟩ := Bytes.split?_eq_some_iff.mp read
        exact ⟨whole, bound⟩
  · rintro ⟨rfl, bound⟩
    exact readChunk?_append bound rest

theorem word_lt_fieldRange (word : UInt64) : word.toNat < Bytes.fieldRange wordWidth :=
  word.toNat_lt

/-- A payload is read as an entry when it begins with the payload of that entry. -/
theorem ofPayload?_eq_some_iff :
    ofPayload? payload = some entry ↔
      (∃ surplus, payload = entry.payload ++ surplus) ∧
        entry.key.length < Bytes.fieldRange wordWidth ∧
        entry.value.length < Bytes.fieldRange wordWidth := by
  constructor
  · intro read
    cases lsnRead : readWord? payload with
    | none => simp [ofPayload?, lsnRead] at read
    | some lsnFound =>
    obtain ⟨lsn, afterLsn⟩ := lsnFound
    cases keyRead : readChunk? afterLsn with
    | none => simp [ofPayload?, lsnRead, keyRead] at read
    | some keyFound =>
    obtain ⟨key, afterKey⟩ := keyFound
    cases valueRead : readChunk? afterKey with
    | none => simp [ofPayload?, lsnRead, keyRead, valueRead] at read
    | some valueFound =>
    obtain ⟨value, afterValue⟩ := valueFound
    cases timeRead : readWord? afterValue with
    | none => simp [ofPayload?, lsnRead, keyRead, valueRead, timeRead] at read
    | some timeFound =>
    obtain ⟨time, surplus⟩ := timeFound
    obtain ⟨rfl, lsnBound⟩ := readWord?_eq_some_iff.mp lsnRead
    obtain ⟨rfl, keyBound⟩ := readChunk?_eq_some_iff.mp keyRead
    obtain ⟨rfl, valueBound⟩ := readChunk?_eq_some_iff.mp valueRead
    obtain ⟨rfl, timeBound⟩ := readWord?_eq_some_iff.mp timeRead
    simp only [ofPayload?, lsnRead, keyRead, valueRead, timeRead, Option.bind_eq_bind,
      Option.bind_some, Option.pure_def, Option.some.injEq] at read
    subst read
    have lsnWord : lsn.toUInt64.toNat = lsn := Nat.mod_eq_of_lt lsnBound
    have timeWord : time.toUInt64.toNat = time := Nat.mod_eq_of_lt timeBound
    refine ⟨⟨surplus, ?_⟩, keyBound, valueBound⟩
    simp only [LogEntry.payload, lsnWord, timeWord, List.append_assoc]
  · rintro ⟨⟨surplus, rfl⟩, keyBound, valueBound⟩
    have lsnRead := fun rest => readWord?_append (word_lt_fieldRange entry.lsn) rest
    have keyRead := fun rest => readChunk?_append keyBound rest
    have valueRead := fun rest => readChunk?_append valueBound rest
    have timeRead := fun rest => readWord?_append (word_lt_fieldRange entry.timestamp) rest
    simp only [ofPayload?, LogEntry.payload, List.append_assoc, lsnRead, keyRead, valueRead,
      timeRead, Option.bind_eq_bind, Option.bind_some, Option.pure_def]
    simp

/-- In a payload that a frame can state the length of, key and value have lengths that fit. -/
theorem ofPayload?_eq_some_iff_of_lt (bound : payload.length < Bytes.fieldRange 4) :
    ofPayload? payload = some entry ↔ ∃ surplus, payload = entry.payload ++ surplus := by
  rw [ofPayload?_eq_some_iff]
  refine ⟨And.left, fun begins => ⟨begins, ?_⟩⟩
  obtain ⟨surplus, rfl⟩ := begins
  have wide : Bytes.fieldRange 4 ≤ Bytes.fieldRange wordWidth := by decide
  rw [List.length_append, length_payload, weight] at bound
  omega

end

end LogEntry

/-- The frame of an entry. Its payload may go on behind the entry. -/
def LogEntry.IsFrame (entry : LogEntry) (frame : Bytes) : Prop :=
  ∃ surplus, (entry.payload ++ surplus).length < Bytes.fieldRange 4 ∧
    frame = framed (entry.payload ++ surplus)

theorem LogEntry.Fits.isFrame {entry : LogEntry} (fits : entry.Fits) :
    entry.IsFrame (framed entry.payload) :=
  ⟨[], by rwa [List.append_nil], by rw [List.append_nil]⟩

theorem LogEntry.IsFrame.fits {entry : LogEntry} {frame : Bytes} (isFrame : entry.IsFrame frame) :
    entry.Fits := by
  obtain ⟨surplus, bound, _⟩ := isFrame
  rw [List.length_append] at bound
  exact Nat.lt_of_le_of_lt (Nat.le_add_right _ _) bound

theorem LogEntry.isFrame_of_frame {entry : LogEntry} {frame : Bytes}
    (framing : entry.frame = .ok frame) : entry.IsFrame frame := by
  by_cases fits : entry.Fits
  · rw [frame_of_fits fits] at framing
    cases framing
    exact fits.isFrame
  · have refused : entry.frame = .error .frameTooLarge := if_neg fits
    rw [refused] at framing
    cases framing

namespace FrameReading

variable {bytes checksum payload rest frame : Bytes} {entry : LogEntry}

theorem ofBytes_nil : ofBytes [] = torn := rfl

/-- At the start stands a frame with all its bytes, whatever checksum it states. -/
structure Complete (bytes checksum payload rest : Bytes) : Prop where
  content : bytes = Bytes.littleEndian 4 payload.length ++ checksum ++ payload ++ rest
  stated : payload.length < Bytes.fieldRange 4
  width : checksum.length = 4

/-- A complete frame that is not the frame of an entry: the checksum it states is not that of its
payload, or the payload does not begin with an entry. -/
def BeginsDamaged (bytes : Bytes) : Prop :=
  ∃ checksum payload rest, Complete bytes checksum payload rest ∧
    (checksum ≠ payload.checksumField ∨
      ∀ (entry : LogEntry) (surplus : Bytes), payload ≠ entry.payload ++ surplus)

theorem Complete.ofBytes_eq (complete : Complete bytes checksum payload rest) :
    ofBytes bytes =
      if payload.checksumField = checksum then
        match LogEntry.ofPayload? payload with
        | some entry => whole entry rest
        | none => damaged
      else damaged := by
  obtain ⟨rfl, stated, width⟩ := complete
  let header := Bytes.littleEndian 4 payload.length ++ checksum
  have headerWidth : header.length = LogEntry.headerWidth := by
    simp [header, width, LogEntry.headerWidth]
  have headerSplit := Bytes.split?_append_of_length (payload ++ rest) headerWidth
  have payloadSplit := Bytes.split?_append payload rest
  have length : Bytes.ofLittleEndian (header.take 4) = payload.length := by
    rw [List.take_left' (Bytes.length_littleEndian 4 _)]
    exact Bytes.ofLittleEndian_littleEndian_of_lt stated
  have stored : header.drop 4 = checksum := List.drop_left' (Bytes.length_littleEndian 4 _)
  rw [List.append_assoc]
  cases decoded : LogEntry.ofPayload? payload <;>
    simp only [ofBytes, header, headerSplit, length, payloadSplit, stored, decoded]

theorem complete_of_ofBytes_ne_torn (bytes : Bytes) (notTorn : ofBytes bytes ≠ torn) :
    ∃ checksum payload rest, Complete bytes checksum payload rest := by
  cases headerSplit : Bytes.split? LogEntry.headerWidth bytes with
  | none => simp [ofBytes, headerSplit] at notTorn
  | some headerFound =>
      obtain ⟨header, body⟩ := headerFound
      cases payloadSplit : Bytes.split? (Bytes.ofLittleEndian (header.take 4)) body with
      | none => simp [ofBytes, headerSplit, payloadSplit] at notTorn
      | some payloadFound =>
          obtain ⟨payload, rest⟩ := payloadFound
          obtain ⟨rfl, width⟩ := Bytes.split?_eq_some_iff.mp headerSplit
          obtain ⟨rfl, length⟩ := Bytes.split?_eq_some_iff.mp payloadSplit
          simp only [LogEntry.headerWidth] at width
          have fieldWidth : (header.take 4).length = 4 := by simp [width]
          refine ⟨header.drop 4, payload, rest, ?_, ?_, by simp [width]⟩
          · have field := Bytes.littleEndian_ofLittleEndian (header.take 4)
            rw [fieldWidth] at field
            rw [length, field, List.take_append_drop, List.append_assoc]
          · have bound := Bytes.ofLittleEndian_lt (header.take 4)
            rwa [fieldWidth, ← length] at bound

theorem ofBytes_eq_whole_iff :
    ofBytes bytes = whole entry rest ↔ ∃ frame, entry.IsFrame frame ∧ bytes = frame ++ rest := by
  constructor
  · intro read
    obtain ⟨checksum, payload, other, complete⟩ :=
      complete_of_ofBytes_ne_torn bytes (by simp [read])
    rw [complete.ofBytes_eq] at read
    split at read
    · rename_i matching
      cases decoded : LogEntry.ofPayload? payload with
      | none => simp [decoded] at read
      | some found =>
          simp only [decoded, whole.injEq] at read
          obtain ⟨rfl, rfl⟩ := read
          obtain ⟨surplus, begins⟩ :=
            (LogEntry.ofPayload?_eq_some_iff_of_lt complete.stated).mp decoded
          subst begins
          refine ⟨_, ⟨surplus, complete.stated, rfl⟩, ?_⟩
          rw [complete.content, ← matching, LogEntry.framed]
    · cases read
  · rintro ⟨frame, ⟨surplus, bound, rfl⟩, rfl⟩
    have complete : Complete (LogEntry.framed (entry.payload ++ surplus) ++ rest)
        (entry.payload ++ surplus).checksumField (entry.payload ++ surplus) rest :=
      ⟨rfl, bound, Bytes.length_checksumField _⟩
    have decoded := (LogEntry.ofPayload?_eq_some_iff_of_lt bound).mpr ⟨surplus, rfl⟩
    simp only [complete.ofBytes_eq, if_true, decoded]

theorem ofBytes_eq_damaged_iff : ofBytes bytes = damaged ↔ BeginsDamaged bytes := by
  have undecodable : ∀ {payload : Bytes}, payload.length < Bytes.fieldRange 4 →
      (LogEntry.ofPayload? payload = none ↔
        ∀ (entry : LogEntry) (surplus : Bytes), payload ≠ entry.payload ++ surplus) := by
    intro payload bound
    simp only [Option.eq_none_iff_forall_ne_some, ne_eq,
      LogEntry.ofPayload?_eq_some_iff_of_lt bound, not_exists]
  constructor
  · intro read
    obtain ⟨checksum, payload, rest, complete⟩ :=
      complete_of_ofBytes_ne_torn bytes (by simp [read])
    refine ⟨checksum, payload, rest, complete, ?_⟩
    rw [complete.ofBytes_eq] at read
    split at read
    · cases decoded : LogEntry.ofPayload? payload with
      | none => exact Or.inr ((undecodable complete.stated).mp decoded)
      | some entry => simp [decoded] at read
    · rename_i different
      exact Or.inl (Ne.symm different)
  · rintro ⟨checksum, payload, rest, complete, different | none⟩
    · rw [complete.ofBytes_eq, if_neg (Ne.symm different)]
    · simp only [complete.ofBytes_eq, (undecodable complete.stated).mpr none, ite_self]

end FrameReading

/-- Bytes that are the frames of the entries, one behind the other. -/
inductive LogEntry.Records : List LogEntry → Bytes → Prop
  | nil : Records [] []
  | cons {entry : LogEntry} {frame rest : Bytes} {entries : List LogEntry}
      (isFrame : entry.IsFrame frame) (records : Records entries rest) :
      Records (entry :: entries) (frame ++ rest)

theorem LogEntry.records_frames {entries : List LogEntry} (fit : ∀ entry ∈ entries, entry.Fits) :
    Records entries (frames entries) := by
  induction entries with
  | nil => exact .nil
  | cons entry rest ih =>
      exact .cons (fit entry List.mem_cons_self).isFrame
        (ih fun other member => fit other (List.mem_cons_of_mem entry member))

/-- Whatever has been read from a log fits a frame. -/
theorem LogEntry.Records.fit {entries : List LogEntry} {bytes : Bytes}
    (records : Records entries bytes) : ∀ entry ∈ entries, entry.Fits := by
  induction records with
  | nil => nofun
  | cons isFrame _ ih => exact List.forall_mem_cons.mpr ⟨isFrame.fits, ih⟩

theorem LogEntry.Records.append {first second : List LogEntry} {left right : Bytes}
    (leftRecords : Records first left) (rightRecords : Records second right) :
    Records (first ++ second) (left ++ right) := by
  induction leftRecords with
  | nil => exact rightRecords
  | cons isFrame _ ih =>
      rw [List.append_assoc]
      exact .cons isFrame ih

namespace LogScan

variable {entries : List LogEntry} {part : Bytes}

/-- A scan passes over whole frames. -/
theorem after_records (records : LogEntry.Records entries part) (earlier : List LogEntry)
    (rest : Bytes) : after earlier (part ++ rest) = after (entries.reverse ++ earlier) rest := by
  induction records generalizing earlier with
  | nil => rfl
  | cons isFrame _ ih =>
      rw [List.append_assoc, after, FrameReading.ofBytes_eq_whole_iff.mpr ⟨_, isFrame, rfl⟩]
      simp only
      rw [ih, List.reverse_cons, List.append_assoc, List.singleton_append]

theorem ofBytes_records (records : LogEntry.Records entries part) :
    ofBytes part = { entries, damaged := false, tail := [] } := by
  have passed := after_records records [] []
  rw [List.append_nil] at passed
  rw [ofBytes, passed, after, FrameReading.ofBytes_nil]
  simp

theorem ofBytes_frames (fit : ∀ entry ∈ entries, entry.Fits) :
    ofBytes (LogEntry.frames entries) = { entries, damaged := false, tail := [] } :=
  ofBytes_records (LogEntry.records_frames fit)

end LogScan

end RowStore
