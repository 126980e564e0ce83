import Mathlib.Algebra.Group.Nat.Defs
import RowStore.Proofs.Measurement.Accounting

/-!
Which latencies are told apart. A slot counts exactly the values from its lowest to its highest, and
longer latencies have later slots as long as there are slots for them, up to two to the forty-second
nanoseconds. Only beyond that are latencies counted as one hour. So those between the slot of one
hour and that bound are counted above one hour, and above all longer ones.
-/

namespace RowStore

namespace LatencySlot

variable {value shorter longer slot count : Nat}

/-- Widths double with each power of two from 2048 on. -/
theorem doublings_spec (value : Nat) :
    value < 2 ^ (doublings value + 11) ∧
      (doublings value = 0 ∨ 2 ^ (doublings value + 10) ≤ value) := by
  have spread : 2047 ≤ value ||| 2047 := Nat.right_le_or
  have nonzero : value ||| 2047 ≠ 0 := by omega
  have enough : 10 ≤ (value ||| 2047).log2 := (Nat.le_log2 nonzero).mpr (by omega)
  have exponent : (value ||| 2047).log2 = doublings value + 10 := by
    rw [doublings]
    omega
  have lower := Nat.log2_self_le nonzero
  have upper : value ||| 2047 < 2 ^ ((value ||| 2047).log2 + 1) := Nat.lt_log2_self
  rw [exponent] at lower upper
  refine ⟨Nat.lt_of_le_of_lt Nat.left_le_or upper, ?_⟩
  rcases Nat.eq_zero_or_pos (doublings value) with none | some
  · exact Or.inl none
  · -- The eleven low bits alone do not reach the highest bit.
    have bits : 2047 < 2 ^ (doublings value + 10) :=
      calc 2047 < 2 ^ 11 := by decide
        _ ≤ 2 ^ (doublings value + 10) := Nat.pow_le_pow_right (by decide) (by omega)
    apply Or.inr
    apply Nat.le_of_not_lt
    intro small
    exact Nat.not_lt_of_le lower (Nat.or_lt_two_pow small bits)

theorem doublings_le (upper : value < 2 ^ (count + 11)) : doublings value ≤ count := by
  obtain ⟨_, none | reached⟩ := doublings_spec value
  · omega
  · have exponent := (Nat.pow_lt_pow_iff_right (by decide : 1 < 2)).mp
      (Nat.lt_of_le_of_lt reached upper)
    omega

theorem le_doublings (lower : count = 0 ∨ 2 ^ (count + 10) ≤ value) :
    count ≤ doublings value := by
  obtain none | reached := lower
  · omega
  · have exponent := (Nat.pow_lt_pow_iff_right (by decide : 1 < 2)).mp
      (Nat.lt_of_le_of_lt reached (doublings_spec value).1)
    omega

theorem doublings_mono (ordered : shorter ≤ longer) : doublings shorter ≤ doublings longer :=
  doublings_le (Nat.lt_of_le_of_lt ordered (doublings_spec longer).1)

theorem ofValue_eq (value : Nat) :
    ofValue value = doublings value * 1024 + value / 2 ^ doublings value := by
  change (doublings value + 1) * 1024 + value >>> doublings value - 1024 = _
  rw [Nat.shiftRight_eq_div_pow, Nat.add_mul, Nat.one_mul, Nat.add_right_comm, Nat.add_sub_cancel]

theorem ofValue_bounds (value : Nat) :
    ofValue value < (doublings value + 2) * 1024 ∧
      (doublings value = 0 ∨ (doublings value + 1) * 1024 ≤ ofValue value) := by
  obtain ⟨upper, lower⟩ := doublings_spec value
  have positive : 0 < 2 ^ doublings value := Nat.two_pow_pos _
  have offset : value / 2 ^ doublings value < 2048 := by
    rw [Nat.div_lt_iff_lt_mul positive, Nat.mul_comm]
    rwa [Nat.pow_add] at upper
  rw [ofValue_eq]
  refine ⟨by omega, lower.imp_right fun reached => ?_⟩
  have half : 1024 ≤ value / 2 ^ doublings value := by
    rw [Nat.le_div_iff_mul_le positive, Nat.mul_comm]
    rwa [Nat.pow_add] at reached
  omega

theorem scale_ofValue (value : Nat) : scale (ofValue value) = doublings value := by
  have bounds := ofValue_bounds value
  rw [scale]
  omega

/-- Where a slot stands among those of its width. -/
def place (slot : Nat) : Nat :=
  slot - scale slot * 1024

theorem mem_slot_iff :
    (lowest slot ≤ value ∧ value ≤ highest slot) ↔ value / 2 ^ scale slot = place slot := by
  have positive : 0 < 2 ^ scale slot := Nat.two_pow_pos _
  rw [Nat.div_eq_iff positive, highest, lowest, width, Nat.shiftLeft_eq, Nat.shiftLeft_eq,
    Nat.one_mul]
  rfl

/-- A slot counts the values from its lowest to its highest, and no others. -/
theorem ofValue_eq_iff : ofValue value = slot ↔ lowest slot ≤ value ∧ value ≤ highest slot := by
  rw [mem_slot_iff]
  constructor
  · rintro rfl
    rw [place, scale_ofValue, ofValue_eq, Nat.add_sub_cancel_left]
  · intro within
    have position : slot = scale slot * 1024 + place slot := by
      rw [place, scale]
      omega
    have bounds : place slot < 2048 ∧ (scale slot = 0 ∨ 1024 ≤ place slot) := by
      rw [place, scale]
      omega
    have positive : 0 < 2 ^ scale slot := Nat.two_pow_pos _
    have same : doublings value = scale slot := by
      apply Nat.le_antisymm
      · apply doublings_le
        rw [Nat.pow_add, Nat.mul_comm, ← Nat.div_lt_iff_lt_mul positive, within]
        exact bounds.1
      · apply le_doublings
        apply bounds.2.imp_right
        intro half
        rwa [Nat.pow_add, Nat.mul_comm, ← Nat.le_div_iff_mul_le positive, within]
    rw [ofValue_eq, same, within, ← position]

theorem ofValue_mono (ordered : shorter ≤ longer) : ofValue shorter ≤ ofValue longer := by
  rcases Nat.eq_or_lt_of_le (doublings_mono ordered) with same | fewer
  · have offset := Nat.div_le_div_right (c := 2 ^ doublings shorter) ordered
    rw [ofValue_eq, ofValue_eq, ← same]
    omega
  · have shorterBounds := ofValue_bounds shorter
    have longerBounds := ofValue_bounds longer
    omega

theorem ofValue_lt_total_iff : ofValue value < total ↔ value < 2 ^ 42 := by
  have bounds := ofValue_bounds value
  rw [total]
  constructor
  · intro counted
    have few : doublings value + 11 ≤ 42 := by omega
    exact Nat.lt_of_lt_of_le (doublings_spec value).1 (Nat.pow_le_pow_right (by decide) few)
  · intro short
    have few : doublings value ≤ 31 := doublings_le short
    omega

theorem recording_of_lt (short : value < 2 ^ 42) : recording value = ofValue value :=
  if_pos (ofValue_lt_total_iff.mpr short)

theorem recording_of_le (long : 2 ^ 42 ≤ value) : recording value = ofValue highestTracked :=
  if_neg fun counted => Nat.not_lt_of_le long (ofValue_lt_total_iff.mp counted)

/-- The slot of one hour. -/
theorem ofValue_eq_highestTracked_iff :
    ofValue value = ofValue highestTracked ↔ 3599182594048 ≤ value ∧ value ≤ 3601330077695 := by
  have lowestValue : lowest (ofValue highestTracked) = 3599182594048 := by decide
  have highestValue : highest (ofValue highestTracked) = 3601330077695 := by decide
  rw [ofValue_eq_iff, lowestValue, highestValue]

/-- A latency is counted as if no longer than one hour up to the end of the slot of one hour, and
again where the slots end. -/
theorem recording_min_iff :
    recording value = recording (min value highestTracked) ↔
      value ≤ 3601330077695 ∨ 4398046511104 ≤ value := by
  have hour : recording highestTracked = ofValue highestTracked :=
    recording_of_lt (by decide)
  rcases Nat.le_total value highestTracked with within | beyond
  · rw [Nat.min_eq_left within]
    rw [highestTracked] at within
    exact iff_of_true rfl (by omega)
  · rw [Nat.min_eq_right beyond, hour]
    rw [highestTracked] at beyond
    rcases Nat.lt_or_ge value (2 ^ 42) with short | long
    · rw [recording_of_lt short, ofValue_eq_highestTracked_iff]
      omega
    · exact iff_of_true (recording_of_le long) (Or.inr long)

/-- The latencies counted above longer ones. -/
theorem recording_lt_iff (ordered : shorter ≤ longer) :
    recording longer < recording shorter ↔
      3601330077695 < shorter ∧ shorter < 4398046511104 ∧ 4398046511104 ≤ longer := by
  rcases Nat.lt_or_ge longer (2 ^ 42) with short | long
  · have above := ofValue_mono ordered
    rw [recording_of_lt short, recording_of_lt (Nat.lt_of_le_of_lt ordered short)]
    omega
  · rw [recording_of_le long]
    rcases Nat.lt_or_ge shorter (2 ^ 42) with shorterShort | shorterLong
    · have spans := @ofValue_eq_highestTracked_iff shorter
      rw [recording_of_lt shorterShort]
      rcases Nat.le_total shorter highestTracked with within | beyond
      · have below := ofValue_mono within
        rw [highestTracked] at within
        omega
      · have above := ofValue_mono beyond
        rw [highestTracked] at beyond
        omega
    · rw [recording_of_le shorterLong]
      omega

end LatencySlot

namespace PerOperation

variable {Value : Type} {table : PerOperation Value} {operation : Operation}
  {change other : Value → Value}

theorem modify_eq_iff :
    table.modify operation change = table.modify operation other ↔
      change (table.get operation) = other (table.get operation) := by
  constructor
  · intro same
    have values := congrArg (·.get operation) same
    simpa only [get_modify, if_pos] using values
  · intro same
    rw [modify, modify, same]

theorem modify_eq_self_iff :
    table.modify operation change = table ↔ change (table.get operation) = table.get operation := by
  have kept : table.modify operation id = table := by
    simp [modify, get]
  have same : table.modify operation change = table.modify operation id ↔
      change (table.get operation) = id (table.get operation) := modify_eq_iff
  rwa [kept, id_eq] at same

end PerOperation

/-- Two slots count one more alike only if neither can count any more. -/
theorem Histogram.addTo_eq_iff (first second : Nat) (counts : List (Nat × Nat)) :
    addTo first counts = addTo second counts ↔
      first = second ∨ addTo first counts = counts ∧ addTo second counts = counts := by
  induction counts with
  | nil => simp [addTo]
  | cons entry rest ih =>
      obtain ⟨slot, count⟩ := entry
      grind [addTo]

theorem Histogram.record_eq_iff (histogram : Histogram) (first second : UInt64) :
    histogram.record first = histogram.record second ↔
      LatencySlot.recording first.toNat = LatencySlot.recording second.toNat ∨
        histogram.record first = histogram ∧ histogram.record second = histogram := by
  obtain ⟨counts⟩ := histogram
  simp only [record, Histogram.mk.injEq]
  exact addTo_eq_iff _ _ counts

namespace LatencyHistograms

variable {histograms : LatencyHistograms} {operation : Operation} {first second : UInt64}

/-- Two reports come to the same if they go to one slot, or if nothing more can be counted in the
slots of both. -/
theorem report_eq_iff :
    histograms.report operation first = histograms.report operation second ↔
      LatencySlot.recording first.toNat = LatencySlot.recording second.toNat ∨
        histograms.report operation first = histograms ∧
          histograms.report operation second = histograms := by
  simp only [report, PerOperation.modify_eq_iff, PerOperation.modify_eq_self_iff]
  exact (histograms.get operation).record_eq_iff first second

theorem report_ne_of_lt (room : histograms.count operation < wordMax) :
    histograms.report operation first ≠ histograms := by
  intro same
  have counted := histograms.count_report operation operation first
  rw [same, if_pos rfl, saturated_of_lt (Nat.add_lt_of_lt_sub room)] at counted
  omega

/-- A latency beyond one hour is counted as one hour only up to the end of its slot, and again from
two to the forty-second nanoseconds on, except that it makes no difference where no more can be
counted. In between it is counted above one hour, and so above the latencies from that bound on,
which are the only longer ones to be counted below shorter ones. -/
theorem report_saturates_iff (histograms : LatencyHistograms) (operation : Operation)
    (latency : UInt64) :
    (histograms.report operation latency =
        histograms.report operation (min latency 3600000000000) ↔
      (latency ≤ 3601330077695 ∨ 4398046511104 ≤ latency) ∨
        histograms.report operation latency = histograms ∧
          histograms.report operation (min latency 3600000000000) = histograms) ∧
    (histograms.count operation < wordMax → histograms.report operation latency ≠ histograms) ∧
    ∀ longer : UInt64, latency ≤ longer →
      (LatencySlot.recording longer.toNat < LatencySlot.recording latency.toNat ↔
        3601330077695 < latency ∧ latency < 4398046511104 ∧ 4398046511104 ≤ longer) := by
  refine ⟨?_, report_ne_of_lt, fun longer ordered => ?_⟩
  · have capped : (min latency 3600000000000).toNat =
        min latency.toNat LatencySlot.highestTracked := by
      rw [Std.min_eq_if, apply_ite UInt64.toNat, Nat.min_def]
      rfl
    rw [report_eq_iff, capped, LatencySlot.recording_min_iff, UInt64.le_iff_toNat_le,
      UInt64.le_iff_toNat_le]
    rfl
  · rw [LatencySlot.recording_lt_iff (UInt64.le_iff_toNat_le.mp ordered), UInt64.lt_iff_toNat_lt,
      UInt64.lt_iff_toNat_lt, UInt64.le_iff_toNat_le]
    rfl

/-- The longest latency with a slot of its own, a good thirteen minutes beyond one hour, is counted
above the latency that is longer by one nanosecond. -/
theorem report_saturates_iff_overlong :
    empty.count ⟨.read, false⟩ < wordMax ∧
      empty.report ⟨.read, false⟩ 4398046511103 ≠
        empty.report ⟨.read, false⟩ (min 4398046511103 3600000000000) ∧
      (4398046511103 : UInt64) ≤ 4398046511104 ∧
      LatencySlot.recording 4398046511104 < LatencySlot.recording 4398046511103 := by
  have room : empty.count ⟨.read, false⟩ < wordMax := by decide
  have longer : (4398046511103 : UInt64) ≤ 4398046511104 := by decide
  obtain ⟨same, changes, order⟩ := report_saturates_iff empty ⟨.read, false⟩ 4398046511103
  refine ⟨room, fun equal => ?_, longer, (order 4398046511104 longer).mpr (by decide)⟩
  rcases same.mp equal with within | ⟨unchanged, _⟩
  · exact absurd within (by decide)
  · exact changes room unchanged

end LatencyHistograms

end RowStore
