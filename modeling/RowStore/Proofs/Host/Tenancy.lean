import RowStore.Host
import RowStore.Proofs.Dictionary

namespace RowStore

namespace Host

variable {World E : Type} {host : Host World E} {slot other : SlotId} {id handle sought : EngineId}
  {state : Slot} {tenant : Tenant E}

/-- What is in a slot. One that nothing has been acquired through is like a new one. -/
def slotAt (host : Host World E) (slot : SlotId) : Slot :=
  (host.slot? slot).getD {}

def held (host : Host World E) (slot : SlotId) : Option EngineId :=
  (host.slotAt slot).held

def references (host : Host World E) (slot : SlotId) : Nat :=
  (host.slotAt slot).references

/-- The handles on an engine that are left once `handle` has been given up. -/
def otherHandles (host : Host World E) (id handle : EngineId) : Nat :=
  host.handles id - if handle = id then 1 else 0

theorem isHeld_iff : host.isHeld id = true ↔ ∃ slot, host.held slot = some id := by
  simp only [isHeld, List.any_eq_true, decide_eq_true_eq, held, slotAt, slot?]
  constructor
  · rintro ⟨⟨slot, state⟩, member, holds⟩
    refine ⟨slot, ?_⟩
    rw [Dictionary.find?_eq_some_iff.mpr member]
    exact holds
  · rintro ⟨slot, holds⟩
    cases found : host.slots.find? slot with
    | none => simp [found] at holds
    | some state =>
        rw [found] at holds
        exact ⟨(slot, state), Dictionary.find?_eq_some_iff.mp found, holds⟩

theorem engine?_eq_some (found : host.tenants.find? id = some tenant) :
    host.engine? id = some tenant.engine := by
  rw [engine?, found]
  rfl

theorem handles_eq (found : host.tenants.find? id = some tenant) :
    host.handles id = tenant.handles := by
  simp only [handles, found]

theorem handles_of_none (absent : host.engine? id = none) : host.handles id = 0 := by
  have missing : host.tenants.find? id = none := Option.map_eq_none_iff.mp absent
  simp only [handles, missing]

theorem isSome_of_handles (live : 0 < host.handles id) : (host.engine? id).isSome = true := by
  apply Option.isSome_iff_ne_none.mpr
  intro absent
  rw [handles_of_none absent] at live
  cases live

theorem exists_tenant (alive : (host.engine? id).isSome = true) :
    ∃ tenant, host.tenants.find? id = some tenant := by
  rw [engine?, Option.isSome_map] at alive
  exact Option.isSome_iff_exists.mp alive

theorem slotAt_setSlot (host : Host World E) (slot other : SlotId) (state : Slot) :
    (host.setSlot slot state).slotAt other = if other = slot then state else host.slotAt other := by
  simp only [slotAt, slot?, setSlot, Dictionary.find?_set]
  split <;> rfl

@[simp] theorem held_setSlot (host : Host World E) (slot other : SlotId) (state : Slot) :
    (host.setSlot slot state).held other =
      if other = slot then state.held else host.held other := by
  simp only [held, slotAt_setSlot]
  split <;> rfl

@[simp] theorem references_setSlot (host : Host World E) (slot other : SlotId) (state : Slot) :
    (host.setSlot slot state).references other =
      if other = slot then state.references else host.references other := by
  simp only [references, slotAt_setSlot]
  split <;> rfl

@[simp] theorem engine?_setSlot (host : Host World E) (slot : SlotId) (state : Slot)
    (id : EngineId) : (host.setSlot slot state).engine? id = host.engine? id := rfl

/-- The host with another count of the references to a slot. -/
def recounted (host : Host World E) (slot : SlotId) (count : Nat) : Host World E :=
  host.setSlot slot { host.slotAt slot with references := count }

@[simp] theorem held_recounted (host : Host World E) (slot other : SlotId) (count : Nat) :
    (host.recounted slot count).held other = host.held other := by
  rw [recounted, held_setSlot]
  split
  · rename_i same
    rw [same]
    rfl
  · rfl

@[simp] theorem references_recounted (host : Host World E) (slot other : SlotId) (count : Nat) :
    (host.recounted slot count).references other =
      if other = slot then count else host.references other :=
  references_setSlot host slot other _

@[simp] theorem engine?_recounted (host : Host World E) (slot : SlotId) (count : Nat)
    (id : EngineId) : (host.recounted slot count).engine? id = host.engine? id := rfl

@[simp] theorem handles_recounted (host : Host World E) (slot : SlotId) (count : Nat)
    (id : EngineId) : (host.recounted slot count).handles id = host.handles id := rfl

theorem isHeld_recounted (host : Host World E) (slot : SlotId) (count : Nat) (id : EngineId) :
    (host.recounted slot count).isHeld id = host.isHeld id := by
  rw [Bool.eq_iff_iff, isHeld_iff, isHeld_iff]
  simp only [held_recounted]

theorem slot?_of_references (counts : 0 < host.references slot) :
    host.slot? slot = some (host.slotAt slot) := by
  cases found : host.slot? slot with
  | none =>
      have none : host.references slot = 0 := by
        rw [references, slotAt, found]
        rfl
      omega
  | some state =>
      rw [slotAt, found]
      rfl

theorem tenants_cloneHandle (host : Host World E) (id sought : EngineId) :
    (host.cloneHandle id).tenants.find? sought =
      if sought = id then
        (host.tenants.find? sought).map fun tenant =>
          { tenant with handles := tenant.handles + 1 }
      else host.tenants.find? sought :=
  Dictionary.find?_update _ _ _ _

@[simp] theorem held_cloneHandle (host : Host World E) (id : EngineId) (slot : SlotId) :
    (host.cloneHandle id).held slot = host.held slot := rfl

@[simp] theorem references_cloneHandle (host : Host World E) (id : EngineId) (slot : SlotId) :
    (host.cloneHandle id).references slot = host.references slot := rfl

@[simp] theorem engine?_cloneHandle (host : Host World E) (id sought : EngineId) :
    (host.cloneHandle id).engine? sought = host.engine? sought := by
  simp only [engine?, tenants_cloneHandle]
  split
  · cases host.tenants.find? sought <;> rfl
  · rfl

theorem handles_cloneHandle (alive : (host.engine? id).isSome = true) (sought : EngineId) :
    (host.cloneHandle id).handles sought =
      host.handles sought + if id = sought then 1 else 0 := by
  obtain ⟨tenant, found⟩ := exists_tenant alive
  by_cases same : sought = id
  · subst same
    simp only [handles, tenants_cloneHandle, if_true, found, Option.map_some]
  · simp only [handles, tenants_cloneHandle, if_neg same, if_neg (Ne.symm same), Nat.add_zero]

variable [Engine World E]

theorem dropHandle_eq (kept : host.isHeld id = true ∨ 1 < host.handles id) :
    host.dropHandle id = { host with
      tenants := host.tenants.update id fun tenant =>
        { tenant with handles := tenant.handles - 1 } } := by
  unfold dropHandle settle
  simp only [Dictionary.find?_update, if_true]
  cases found : host.tenants.find? id with
  | none => rfl
  | some tenant =>
      simp only [Option.map_some]
      rw [if_neg]
      rintro ⟨none, notHeld⟩
      have notHeld : host.isHeld id = false := notHeld
      rcases kept with isHeld | several
      · rw [isHeld] at notHeld
        cases notHeld
      · rw [handles_eq found] at several
        omega

private theorem settle_tenants (host : Host World E) (id : EngineId) :
    (host.settle id).tenants = host.tenants ∨ (host.settle id).tenants = host.tenants.erase id := by
  unfold settle
  split
  · exact Or.inl rfl
  · split
    · exact Or.inr rfl
    · exact Or.inl rfl

private theorem settle_slots (host : Host World E) (id : EngineId) :
    (host.settle id).slots = host.slots ∧ (host.settle id).nextEngine = host.nextEngine := by
  unfold settle
  split
  · exact ⟨rfl, rfl⟩
  · split <;> exact ⟨rfl, rfl⟩

theorem slotAt_dropHandle (host : Host World E) (id : EngineId) (slot : SlotId) :
    (host.dropHandle id).slotAt slot = host.slotAt slot := by
  simp only [slotAt, slot?, dropHandle, (settle_slots _ _).1]

@[simp] theorem held_dropHandle (host : Host World E) (id : EngineId) (slot : SlotId) :
    (host.dropHandle id).held slot = host.held slot := by
  rw [held, slotAt_dropHandle, held]

@[simp] theorem references_dropHandle (host : Host World E) (id : EngineId) (slot : SlotId) :
    (host.dropHandle id).references slot = host.references slot := by
  rw [references, slotAt_dropHandle, references]

@[simp] theorem nextEngine_dropHandle (host : Host World E) (id : EngineId) :
    (host.dropHandle id).nextEngine = host.nextEngine :=
  (settle_slots _ _).2

theorem tenants_dropHandle_other (different : sought ≠ id) :
    (host.dropHandle id).tenants.find? sought = host.tenants.find? sought := by
  unfold dropHandle
  rcases settle_tenants { host with
      tenants := host.tenants.update id fun tenant =>
        { tenant with handles := tenant.handles - 1 } } id with same | erased
  · simp only [same, Dictionary.find?_update, if_neg different]
  · simp only [erased, Dictionary.find?_erase, Dictionary.find?_update, if_neg different]

theorem engine?_dropHandle_of_none (id : EngineId) (absent : host.engine? sought = none) :
    (host.dropHandle id).engine? sought = none := by
  have missing : host.tenants.find? sought = none := Option.map_eq_none_iff.mp absent
  by_cases same : sought = id
  · subst same
    rw [dropHandle, settle]
    simp only [Dictionary.find?_update, if_true, missing, Option.map_none, engine?]
  · rw [engine?, tenants_dropHandle_other same, missing]
    rfl

/-- A handle that is given up is one less, whether its engine stays or not. -/
theorem handles_dropHandle (host : Host World E) (id sought : EngineId) :
    (host.dropHandle id).handles sought = host.otherHandles sought id := by
  by_cases same : sought = id
  · subst same
    rw [otherHandles, if_pos rfl]
    cases found : host.tenants.find? sought with
    | none =>
        have absent : host.engine? sought = none := by
          rw [engine?, found]
          rfl
        rw [handles_of_none (engine?_dropHandle_of_none sought absent), handles_of_none absent]
    | some tenant =>
        rw [handles_eq found]
        unfold dropHandle settle
        simp only [Dictionary.find?_update, if_true, found, Option.map_some]
        split
        · rename_i unused
          simp only [handles, Dictionary.find?_erase, if_true, unused.1]
        · simp only [handles, Dictionary.find?_update, if_true, found, Option.map_some]
  · rw [otherHandles, if_neg (Ne.symm same), handles, tenants_dropHandle_other same, handles,
      Nat.sub_zero]

/-- Giving up a handle does nothing to the world, unless it is the last on an engine that is in no
slot. That engine is given up with it. -/
theorem world_dropHandle_cases (host : Host World E) (id : EngineId) :
    (host.dropHandle id).world = host.world ∨
      ∃ engine, host.engine? id = some engine ∧ host.handles id ≤ 1 ∧ host.isHeld id = false ∧
        (host.dropHandle id).world = Engine.abandoned engine host.world := by
  unfold dropHandle settle
  simp only [Dictionary.find?_update, if_true]
  cases found : host.tenants.find? id with
  | none => exact Or.inl rfl
  | some tenant =>
      simp only [Option.map_some]
      split
      · rename_i unused
        have last : host.handles id ≤ 1 := by
          rw [handles_eq found]
          exact Nat.le_of_sub_eq_zero unused.1
        exact Or.inr ⟨tenant.engine, engine?_eq_some found, last, unused.2, rfl⟩
      · exact Or.inl rfl

theorem tenants_dropHandle_held (isHeld : host.isHeld sought = true)
    (found : host.tenants.find? sought = some tenant) :
    (host.dropHandle id).tenants.find? sought =
      some { tenant with handles := host.otherHandles sought id } := by
  by_cases same : sought = id
  · subst same
    rw [dropHandle_eq (Or.inl isHeld)]
    simp only [Dictionary.find?_update, if_true, found, Option.map_some, otherHandles,
      handles_eq found]
  · rw [tenants_dropHandle_other same, found, otherHandles, if_neg (Ne.symm same),
      handles_eq found, Nat.sub_zero]

theorem engine?_dropHandle_held (id : EngineId) (isHeld : host.isHeld sought = true) :
    (host.dropHandle id).engine? sought = host.engine? sought := by
  cases found : host.tenants.find? sought with
  | none =>
      have absent : host.engine? sought = none := by rw [engine?, found]; rfl
      rw [engine?_dropHandle_of_none id absent, absent]
  | some tenant =>
      rw [engine?_eq_some found, engine?_eq_some (tenants_dropHandle_held isHeld found)]

/-- Whether an engine is given up does not depend on any count of references. -/
theorem world_dropHandle_recounted (host : Host World E) (slot : SlotId) (count : Nat)
    (id : EngineId) :
    ((host.recounted slot count).dropHandle id).world = (host.dropHandle id).world := by
  unfold dropHandle settle
  have holds : ∀ tenants, ({ host.recounted slot count with tenants } : Host World E).isHeld id =
      ({ host with tenants } : Host World E).isHeld id :=
    fun _ => isHeld_recounted host slot count id
  have sameTenants : (host.recounted slot count).tenants = host.tenants := rfl
  simp only [Dictionary.find?_update, if_true, sameTenants]
  cases host.tenants.find? id with
  | none => rfl
  | some tenant =>
      simp only [Option.map_some, holds]
      split <;> rfl

theorem acquire_held (holds : host.held slot = some id) (settings : Settings) :
    host.acquire slot settings =
      (.ok id, (host.cloneHandle id).recounted slot (host.references slot + 1)) := by
  have same : (host.slot? slot).getD {} = host.slotAt slot := rfl
  have sameClone : (host.cloneHandle id).slotAt slot = host.slotAt slot := rfl
  have holds : (host.slotAt slot).held = some id := holds
  simp only [acquire, recounted, references, same, sameClone, holds]

theorem acquire_opens {settings : Settings} {options : TableOptions} {engine : E} {world : World}
    (vacant : host.held slot = none) (valid : settings.tableOptions = .ok options)
    (opening : Engine.openAt options host.world = (.ok engine, world)) :
    host.acquire slot settings = (.ok host.nextEngine,
      ({ host with world }.adopt engine).2.setSlot slot
        { host.slotAt slot with
          held := some host.nextEngine, references := host.references slot + 1 }) := by
  have vacant : ((host.slot? slot).getD {}).held = none := vacant
  simp only [acquire, vacant, openInto, valid, opening]
  rfl

theorem acquire_vacant (vacant : host.held slot = none) (settings : Settings) :
    (∃ fault world, host.acquire slot settings = (.error fault, { host with world })) ∨
      ∃ options engine world, settings.tableOptions = .ok options ∧
        Engine.openAt options host.world = (.ok engine, world) ∧
        host.acquire slot settings = (.ok host.nextEngine,
          ({ host with world }.adopt engine).2.setSlot slot
            { host.slotAt slot with
              held := some host.nextEngine, references := host.references slot + 1 }) := by
  have none : ((host.slot? slot).getD {}).held = none := vacant
  cases valid : settings.tableOptions with
  | error fault =>
      refine Or.inl ⟨fault, host.world, ?_⟩
      simp only [acquire, none, openInto, valid]
  | ok options =>
      cases opening : Engine.openAt (E := E) options host.world with
      | mk outcome world =>
          cases outcome with
          | error fault =>
              refine Or.inl ⟨fault, world, ?_⟩
              simp only [acquire, none, openInto, valid, opening]
          | ok engine =>
              have acquired := acquire_opens vacant valid opening
              exact Or.inr ⟨options, engine, world, rfl, opening, acquired⟩

/-- A handle and a reference given back, before it is looked whether they were the last. -/
def returned (host : Host World E) (slot : SlotId) (handle : EngineId) : Host World E :=
  (host.recounted slot (host.references slot - 1)).dropHandle handle

@[simp] theorem references_returned (host : Host World E) (slot other : SlotId)
    (handle : EngineId) :
    (host.returned slot handle).references other =
      if other = slot then host.references slot - 1 else host.references other := by
  rw [returned, references_dropHandle, references_recounted]

theorem engine?_returned_of_none (handle : EngineId) (absent : host.engine? id = none) :
    (host.returned slot handle).engine? id = none :=
  engine?_dropHandle_of_none handle absent

theorem world_dropHandle_held (isHeld : host.isHeld id = true) :
    (host.dropHandle id).world = host.world := by
  rw [dropHandle_eq (Or.inl isHeld)]

theorem tenants_returned_held (slot : SlotId) (handle : EngineId)
    (isHeld : host.isHeld id = true)
    (found : host.tenants.find? id = some tenant) :
    (host.returned slot handle).tenants.find? id =
      some { tenant with handles := host.otherHandles id handle } := by
  have stillHeld : (host.recounted slot (host.references slot - 1)).isHeld id = true := by
    rw [isHeld_recounted, isHeld]
  exact tenants_dropHandle_held stillHeld found

theorem world_returned (host : Host World E) (slot : SlotId) (handle : EngineId) :
    (host.returned slot handle).world = (host.dropHandle handle).world :=
  world_dropHandle_recounted host slot _ handle

theorem release_unmatched (none : host.references slot = 0) (handle : EngineId) :
    host.release slot handle = (.error (.storage .unmatchedRelease), host.dropHandle handle) := by
  have none : ((host.slot? slot).getD {}).references = 0 := none
  simp only [release, none, if_true]

theorem release_several (several : 1 < host.references slot) (handle : EngineId) :
    host.release slot handle = (.ok (), host.returned slot handle) := by
  have counted : ((host.slot? slot).getD {}).references = host.references slot := rfl
  have notZero : ¬ host.references slot = 0 := by omega
  simp only [release, counted, if_neg notZero, if_pos several]
  rfl

private theorem release_last_eq (last : host.references slot = 1) (handle : EngineId) :
    host.release slot handle = (host.returned slot handle).closeHeld slot := by
  have counted : ((host.slot? slot).getD {}).references = host.references slot := rfl
  have notZero : ¬ host.references slot = 0 := by omega
  have notSeveral : ¬ 1 < host.references slot := by omega
  simp only [release, counted, if_neg notZero, if_neg notSeveral]
  rfl

private theorem slot?_returned (host : Host World E) (slot : SlotId) (handle : EngineId) :
    (host.returned slot handle).slot? slot =
      some { host.slotAt slot with references := host.references slot - 1 } := by
  rw [returned, slot?, dropHandle, (settle_slots _ _).1]
  exact Dictionary.find?_set_self _ _ _

theorem release_refused (last : host.references slot = 1) (holds : host.held slot = some id)
    (found : host.tenants.find? id = some tenant) (others : 0 < host.otherHandles id handle) :
    host.release slot handle =
      (.error (.storage (.stillInUse (host.otherHandles id handle))),
        host.returned slot handle) := by
  have stays := tenants_returned_held slot handle (isHeld_iff.mpr ⟨slot, holds⟩) found
  have present := host.slot?_returned slot handle
  have holds : (host.slotAt slot).held = some id := holds
  rw [release_last_eq last]
  simp only [closeHeld, present, holds, stays, if_pos others]

theorem release_closes (last : host.references slot = 1) (holds : host.held slot = some id)
    (found : host.tenants.find? id = some tenant) (others : host.otherHandles id handle = 0) :
    host.release slot handle =
      ((Engine.close tenant.engine (host.dropHandle handle).world).1,
        { host.returned slot handle with
          world := (Engine.close tenant.engine (host.dropHandle handle).world).2
          tenants := (host.returned slot handle).tenants.erase id }.setSlot slot
            { host.slotAt slot with held := none, references := 0 }) := by
  have stays := tenants_returned_held slot handle (isHeld_iff.mpr ⟨slot, holds⟩) found
  have present := host.slot?_returned slot handle
  have holds : (host.slotAt slot).held = some id := holds
  have noOthers : ¬ 0 < host.otherHandles id handle := by omega
  rw [release_last_eq last]
  simp only [closeHeld, present, holds, stays, if_neg noOthers, world_returned, last, Nat.sub_self]

end Host

end RowStore
