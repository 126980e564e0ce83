import Mathlib.Data.List.Forall2
import RowStore.Proofs.Row.Grammar
import RowStore.Row.Selection

namespace RowStore

variable {row later front : Row} {field : Field} {wanted names others rest : List Bytes}
  {name missing : Bytes} {places : List Nat}

namespace Row

/-- One pass over the fields, each compared with the first name that is still wanted: the fields
that match, and the names that stay wanted. -/
def pick : Row → List Bytes → Row × List Bytes
  | _, [] => ([], [])
  | [], name :: others => ([], name :: others)
  | field :: later, name :: others =>
      if field.name = name then (field :: (pick later others).1, (pick later others).2)
      else pick later (name :: others)

@[simp] theorem pick_nil (row : Row) : row.pick [] = ([], []) := by
  cases row <;> rfl

theorem pick_same (field : Field) (later : Row) (others : List Bytes) :
    pick (field :: later) (field.name :: others) =
      (field :: (pick later others).1, (pick later others).2) :=
  if_pos rfl

theorem pick_skip (later : Row) (others : List Bytes) (different : field.name ≠ name) :
    pick (field :: later) (name :: others) = pick later (name :: others) :=
  if_neg different

theorem names_pick (row : Row) (wanted : List Bytes) :
    (row.pick wanted).1.map Field.name ++ (row.pick wanted).2 = wanted := by
  induction row, wanted using pick.induct with
  | case1 row => simp
  | case2 name others => rfl
  | case3 field later others ih =>
      rw [pick_same field later others]
      simp only [List.map_cons, List.cons_append, ih]
  | case4 field later name others different ih =>
      rw [pick_skip later others different]
      exact ih

theorem pick_sublist (row : Row) (wanted : List Bytes) : (row.pick wanted).1.Sublist row := by
  induction row, wanted using pick.induct with
  | case1 row => simp
  | case2 name others => exact List.nil_sublist _
  | case3 field later others ih =>
      rw [pick_same field later others]
      exact ih.cons_cons field
  | case4 field later name others different ih =>
      rw [pick_skip later others different]
      exact ih.cons field

theorem prefix_of_missing (misses : (row.pick wanted).2 = missing :: rest) :
    (row.pick wanted).1.map Field.name ++ [missing] <+: wanted := by
  have whole := names_pick row wanted
  rw [misses] at whole
  exact ⟨rest, by rw [List.append_assoc, List.singleton_append, whole]⟩

/-- The pass never misses a match: one name more than it has matched cannot be had. -/
theorem not_sublist_of_missing (misses : (row.pick wanted).2 = missing :: rest) :
    ¬ ((row.pick wanted).1.map Field.name ++ [missing]).Sublist (row.map Field.name) := by
  induction row, wanted using pick.induct with
  | case1 row => simp at misses
  | case2 name others => simp [pick]
  | case3 field later others ih =>
      rw [pick_same field later others] at misses ⊢
      intro matched
      exact ih misses (List.cons_sublist_cons.mp matched)
  | case4 field later name others different ih =>
      rw [pick_skip later others different] at misses ⊢
      intro matched
      apply ih misses
      -- What is matched begins with the wanted name, which is not the name of this field.
      have begins := prefix_of_missing misses
      cases matching : (pick later (name :: others)).1.map Field.name ++ [missing] with
      | nil => simp at matching
      | cons first more =>
          rw [matching] at begins matched
          obtain ⟨rfl, -⟩ := List.cons_prefix_cons.mp begins
          exact matched.of_cons_of_ne (Ne.symm different)

theorem pick_complete_iff :
    (row.pick wanted).2 = [] ↔ wanted.Sublist (row.map Field.name) := by
  have whole := names_pick row wanted
  constructor
  · intro complete
    rw [complete, List.append_nil] at whole
    rw [← whole]
    exact (pick_sublist row wanted).map Field.name
  · intro matched
    cases misses : (row.pick wanted).2 with
    | nil => rfl
    | cons missing rest =>
        have begins := (prefix_of_missing misses).sublist
        exact absurd (begins.trans matched) (not_sublist_of_missing misses)

/-- Fields behind the last match make no difference. -/
theorem pick_append (complete : (front.pick wanted).2 = []) (back : Row) :
    (front ++ back).pick wanted = front.pick wanted := by
  induction front, wanted using pick.induct with
  | case1 front => simp
  | case2 name others => cases complete
  | case3 field later others ih =>
      rw [pick_same field later others] at complete ⊢
      rw [List.cons_append, pick_same field _ others, ih complete]
  | case4 field later name others different ih =>
      rw [pick_skip later others different] at complete ⊢
      rw [List.cons_append, pick_skip _ others different, ih complete]

/-- Ascending places in a row at which the names stand. -/
structure StandAt (row : Row) (names : List Bytes) (places : List Nat) : Prop where
  ascending : places.Pairwise (· < ·)
  named : places.map (fun place => row[place]?.map Field.name) = names.map some

/-- The places at which the names stand that are, each of them, furthest to the left. -/
def StandLeftmost (row : Row) (names : List Bytes) (places : List Nat) : Prop :=
  StandAt row names places ∧ ∀ others, StandAt row names others → List.Forall₂ (· ≤ ·) places others

namespace StandAt

theorem nil_iff : StandAt row [] places ↔ places = [] := by
  constructor
  · intro stand
    simpa using stand.named
  · rintro rfl
    exact ⟨List.Pairwise.nil, rfl⟩

theorem behind_iff (field : Field) :
    StandAt (field :: later) names (places.map (· + 1)) ↔ StandAt later names places := by
  have named : (places.map (· + 1)).map (fun place => (field :: later)[place]?.map Field.name) =
      places.map (fun place => later[place]?.map Field.name) := by
    rw [List.map_map]
    rfl
  constructor
  · intro stand
    exact ⟨by simpa using List.pairwise_map.mp stand.ascending, named ▸ stand.named⟩
  · intro stand
    exact ⟨List.pairwise_map.mpr (by simpa using stand.ascending), named ▸ stand.named⟩

theorem positive (stand : StandAt (field :: later) names places)
    (different : names.head? ≠ some field.name) : ∀ place ∈ places, 0 < place := by
  cases places with
  | nil => simp
  | cons first rest =>
      have above : ∀ place ∈ rest, first < place := (List.pairwise_cons.mp stand.ascending).1
      have positive : 0 < first := by
        apply Nat.pos_of_ne_zero
        rintro rfl
        have named := stand.named
        cases names with
        | nil => simp at named
        | cons name others => exact different (by simp_all)
      intro place member
      rcases List.mem_cons.mp member with rfl | member
      · exact positive
      · exact Nat.lt_trans positive (above place member)

/-- Places that leave out the first field are places in the rest of the row. -/
theorem exists_inner (stand : StandAt (field :: later) names places)
    (positive : ∀ place ∈ places, 0 < place) :
    ∃ inner, places = inner.map (· + 1) ∧ StandAt later names inner := by
  have shifted : (places.map (· - 1)).map (· + 1) = places := by
    rw [List.map_map]
    conv => rhs; rw [← List.map_id places]
    apply List.map_congr_left
    intro place member
    have above := positive place member
    simp only [Function.comp_apply, id_eq]
    omega
  rw [← shifted] at stand
  exact ⟨places.map (· - 1), shifted.symm, (behind_iff field).mp stand⟩

end StandAt

/-- The pass finds each field as far to the left as it can stand. -/
theorem exists_standLeftmost (row : Row) (wanted : List Bytes) :
    ∃ places, StandLeftmost row ((row.pick wanted).1.map Field.name) places ∧
      places.map (row[·]?) = (row.pick wanted).1.map some := by
  have nowhere : ∀ row : Row, StandLeftmost row [] [] := by
    intro row
    refine ⟨StandAt.nil_iff.mpr rfl, fun others stand => ?_⟩
    rw [StandAt.nil_iff.mp stand]
    exact List.Forall₂.nil
  induction row, wanted using pick.induct with
  | case1 row =>
      rw [pick_nil]
      exact ⟨[], nowhere row, rfl⟩
  | case2 name others => exact ⟨[], nowhere [], rfl⟩
  | case3 field later others ih =>
      obtain ⟨places, ⟨stand, leftmost⟩, fields⟩ := ih
      have shifted := (StandAt.behind_iff field).mpr stand
      rw [pick_same field later others]
      refine ⟨0 :: places.map (· + 1), ⟨⟨?_, ?_⟩, ?_⟩, ?_⟩
      · exact List.pairwise_cons.mpr ⟨by simp, shifted.ascending⟩
      · rw [List.map_cons, shifted.named]
        rfl
      · intro other otherStand
        cases other with
        | nil => simpa using otherStand.named
        | cons first rest =>
            obtain ⟨above, ascending⟩ := List.pairwise_cons.mp otherStand.ascending
            have restStand : StandAt (field :: later) ((pick later others).1.map Field.name) rest :=
              ⟨ascending, (List.cons.inj otherStand.named).2⟩
            obtain ⟨inner, rfl, innerStand⟩ := restStand.exists_inner
              fun place member => Nat.zero_lt_of_lt (above place member)
            refine List.Forall₂.cons (Nat.zero_le first) ?_
            rw [List.forall₂_map_left_iff, List.forall₂_map_right_iff]
            exact (leftmost inner innerStand).imp fun _ _ before => Nat.succ_le_succ before
      · rw [List.map_cons, List.map_map, List.map_cons, ← fields]
        rfl
  | case4 field later name others different ih =>
      obtain ⟨places, ⟨stand, leftmost⟩, fields⟩ := ih
      rw [pick_skip later others different]
      refine ⟨places.map (· + 1), ⟨(StandAt.behind_iff field).mpr stand, ?_⟩, ?_⟩
      · intro other otherStand
        -- The first name to be found is not that of the field that is passed over.
        have notHere : ((pick later (name :: others)).1.map Field.name).head? ≠
            some field.name := by
          have begins : (pick later (name :: others)).1.map Field.name <+: name :: others :=
            ⟨_, names_pick later (name :: others)⟩
          cases picked : (pick later (name :: others)).1.map Field.name with
          | nil => simp
          | cons first more =>
              rw [picked] at begins
              obtain ⟨rfl, -⟩ := List.cons_prefix_cons.mp begins
              simpa using Ne.symm different
        obtain ⟨inner, rfl, innerStand⟩ := otherStand.exists_inner (otherStand.positive notHere)
        rw [List.forall₂_map_left_iff, List.forall₂_map_right_iff]
        exact (leftmost inner innerStand).imp fun _ _ before => Nat.succ_le_succ before
      · rw [List.map_map, ← fields]
        rfl

end Row

namespace RowReader

variable {reader after : RowReader}

theorem selectAfter_nil (found : Row) (reader : RowReader) :
    reader.selectAfter found [] = .ok found.reverse := by
  rw [selectAfter]

theorem selectAfter_of_field (read : reader.next = (.ok (some field), after)) (found : Row)
    (name : Bytes) (others : List Bytes) :
    reader.selectAfter found (name :: others) =
      if field.name = name then after.selectAfter (field :: found) others
      else after.selectAfter found (name :: others) := by
  rw [selectAfter]
  split <;> simp_all

theorem selectAfter_of_end (atEnd : reader.rest = []) (found : Row) (name : Bytes)
    (others : List Bytes) :
    reader.selectAfter found (name :: others) =
      .error (.fieldNotFound (Utf8.decodeLossy name)) := by
  have read := next_eq_none_iff.mpr atEnd
  rw [selectAfter]
  split <;> simp_all

theorem selectAfter_of_fault {fault : RowFault} (read : reader.next.1 = .error fault)
    (found : Row) (name : Bytes) (others : List Bytes) :
    reader.selectAfter found (name :: others) = .error (.malformedRow fault) := by
  rw [selectAfter]
  split <;> simp_all

/-- The reader selects from the fields that the bytes begin with as the pass does. -/
theorem selectAfter_append (fits : row.Fits) (found : Row) (wanted : List Bytes) (rest : Bytes)
    (offset : Nat) :
    RowReader.selectAfter found wanted { rest := row.bytes ++ rest, offset } =
      RowReader.selectAfter ((row.pick wanted).1.reverse ++ found) (row.pick wanted).2
        { rest, offset := offset + row.encodedSize } := by
  induction row, wanted using Row.pick.induct generalizing found offset with
  | case1 row =>
      rw [Row.pick_nil, selectAfter_nil, selectAfter_nil, List.reverse_nil, List.nil_append]
  | case2 name others => rfl
  | case3 field later others ih =>
      obtain ⟨fieldFits, laterFits⟩ := List.forall_mem_cons.mp fits
      have read := next_append fieldFits (Row.bytes later ++ rest) offset
      rw [Row.pick_same, Row.bytes_cons, List.append_assoc, selectAfter_of_field read, if_pos rfl,
        ih laterFits, Row.encodedSize_cons, Nat.add_assoc, List.reverse_cons, List.append_assoc,
        List.singleton_append]
  | case4 field later name others different ih =>
      obtain ⟨fieldFits, laterFits⟩ := List.forall_mem_cons.mp fits
      have read := next_append fieldFits (Row.bytes later ++ rest) offset
      rw [Row.pick_skip later others different, Row.bytes_cons, List.append_assoc,
        selectAfter_of_field read, if_neg different, ih laterFits, Row.encodedSize_cons,
        Nat.add_assoc]

end RowReader

namespace Row

theorem decodeSelected_append (fits : row.Fits) (wanted : List Bytes) (rest : Bytes) :
    decodeSelected (row.bytes ++ rest) wanted =
      RowReader.selectAfter (row.pick wanted).1.reverse (row.pick wanted).2
        { rest, offset := row.encodedSize } := by
  have passed := RowReader.selectAfter_append fits [] wanted rest 0
  rwa [List.append_nil, Nat.zero_add] at passed

theorem decodeSelected_complete (fits : row.Fits) (complete : (row.pick wanted).2 = [])
    (rest : Bytes) : decodeSelected (row.bytes ++ rest) wanted = .ok (row.pick wanted).1 := by
  rw [decodeSelected_append fits, complete, RowReader.selectAfter_nil, List.reverse_reverse]

theorem decodeSelected_matched (fits : row.Fits) (matched : wanted.Sublist (row.map Field.name))
    (rest : Bytes) :
    ∃ places selected, StandLeftmost row wanted places ∧
      places.map (row[·]?) = selected.map some ∧ selected.map Field.name = wanted ∧
      decodeSelected (row.bytes ++ rest) wanted = .ok selected ∧
      ∀ front back more, row = front ++ back → wanted.Sublist (front.map Field.name) →
        decodeSelected (front.bytes ++ more) wanted = .ok selected := by
  have complete := pick_complete_iff.mpr matched
  have whole := names_pick row wanted
  rw [complete, List.append_nil] at whole
  obtain ⟨places, leftmost, fields⟩ := exists_standLeftmost row wanted
  rw [whole] at leftmost
  refine ⟨places, (row.pick wanted).1, leftmost, fields, whole,
    decodeSelected_complete fits complete rest, ?_⟩
  rintro front back more rfl frontMatched
  have frontComplete := pick_complete_iff.mpr frontMatched
  have frontFits : front.Fits := fun field member => fits field (List.mem_append_left back member)
  rw [pick_append frontComplete]
  exact decodeSelected_complete frontFits frontComplete more

theorem exists_missing (unmatched : ¬ wanted.Sublist (row.map Field.name)) :
    ∃ missing rest, (row.pick wanted).2 = missing :: rest := by
  cases misses : (row.pick wanted).2 with
  | nil => exact absurd (pick_complete_iff.mp misses) unmatched
  | cons missing rest => exact ⟨missing, rest, rfl⟩

theorem LegibleFields.decodeSelected_missing {bytes : Bytes} (legible : LegibleFields bytes row [])
    (misses : (row.pick wanted).2 = missing :: rest) :
    decodeSelected bytes wanted = .error (.fieldNotFound (Utf8.decodeLossy missing)) := by
  have selecting := decodeSelected_append legible.fits wanted []
  rwa [← legible.content, misses, RowReader.selectAfter_of_end rfl] at selecting

theorem LegibleFields.decodeSelected_malformed {bytes behind : Bytes} {fault : RowFault}
    (legible : LegibleFields bytes row behind)
    (read : (RowReader.next { rest := behind, offset := row.encodedSize }).1 = .error fault)
    (misses : (row.pick wanted).2 = missing :: rest) :
    decodeSelected bytes wanted = .error (.malformedRow fault) := by
  have selecting := decodeSelected_append legible.fits wanted behind
  rwa [← legible.content, misses, RowReader.selectAfter_of_fault read] at selecting

/-- The wanted fields are found exactly when their names come in stored order, and then furthest to
the left and whatever stands behind them. A name that is missing is reported only where the row
ends, and a fault before the last match is the one that decoding reports. -/
theorem decodeSelected_agrees (bytes : Bytes) (wanted : List Bytes) :
    ∃ row rest, LegibleFields bytes row rest ∧
      (wanted.Sublist (row.map Field.name) →
        ∃ places selected, StandLeftmost row wanted places ∧
          places.map (row[·]?) = selected.map some ∧ selected.map Field.name = wanted ∧
          decodeSelected bytes wanted = .ok selected ∧
          ∀ front back more, row = front ++ back → wanted.Sublist (front.map Field.name) →
            decodeSelected (front.bytes ++ more) wanted = .ok selected) ∧
      (¬ wanted.Sublist (row.map Field.name) →
        (rest = [] → ∃ matched name others, wanted = matched ++ name :: others ∧
          matched.Sublist (row.map Field.name) ∧
          ¬ (matched ++ [name]).Sublist (row.map Field.name) ∧
          decode bytes = .ok row ∧
          decodeSelected bytes wanted = .error (.fieldNotFound (Utf8.decodeLossy name))) ∧
        (rest ≠ [] → ∃ fault, decode bytes = .error (.malformedRow fault) ∧
          decodeSelected bytes wanted = .error (.malformedRow fault))) := by
  obtain ⟨row, behind, legible⟩ := exists_legibleFields bytes
  refine ⟨row, behind, legible, fun matched => ?_, fun unmatched => ?_⟩
  · obtain ⟨places, selected, leftmost, fields, named, selecting, early⟩ :=
      decodeSelected_matched legible.fits matched behind
    rw [← legible.content] at selecting
    exact ⟨places, selected, leftmost, fields, named, selecting, early⟩
  · obtain ⟨missing, later, misses⟩ := exists_missing unmatched
    constructor
    · rintro rfl
      have whole := names_pick row wanted
      rw [misses] at whole
      exact ⟨_, missing, later, whole.symm, (pick_sublist row wanted).map Field.name,
        not_sublist_of_missing misses, legible.decode_clean, legible.decodeSelected_missing misses⟩
    · intro goesOn
      rcases legible.next_cases row.encodedSize with ended | ⟨fault, read⟩
      · exact absurd ended goesOn
      · exact ⟨fault, legible.decode_malformed read, legible.decodeSelected_malformed read misses⟩

end Row

end RowStore
