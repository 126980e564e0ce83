import RowStore.Proofs.Host.Tenancy

namespace RowStore

namespace Host

variable {World E : Type} {host : Host World E} {slot : SlotId} {id : EngineId}
  {owners count : Nat} {engine changed : E} {settings : Settings} {world : World}

def Idle (host : Host World E) (slot : SlotId) (owners : Nat) : Prop :=
  host.slotAt slot = { owners }

structure Serves (host : Host World E) (slot : SlotId) (owners : Nat) (id : EngineId)
    (engine : E) (count : Nat) : Prop where
  slotAt : host.slotAt slot = { held := some id, references := count, owners }
  tenant : host.tenants.find? id = some { engine, handles := count }

theorem Idle.held (idle : host.Idle slot owners) : host.held slot = none :=
  congrArg Slot.held idle

theorem Idle.references (idle : host.Idle slot owners) : host.references slot = 0 :=
  congrArg Slot.references idle

theorem Serves.holds (serves : host.Serves slot owners id engine count) :
    host.held slot = some id :=
  congrArg Slot.held serves.slotAt

theorem Serves.references (serves : host.Serves slot owners id engine count) :
    host.references slot = count :=
  congrArg Slot.references serves.slotAt

theorem Serves.isHeld (serves : host.Serves slot owners id engine count) :
    host.isHeld id = true :=
  isHeld_iff.mpr ⟨slot, serves.holds⟩

theorem Serves.engine? (serves : host.Serves slot owners id engine count) :
    host.engine? id = some engine :=
  engine?_eq_some serves.tenant

theorem Serves.otherHandles (serves : host.Serves slot owners id engine count) :
    host.otherHandles id id = count - 1 := by
  rw [Host.otherHandles, handles_eq serves.tenant, if_pos rfl]

theorem slotAt_eq (holds : host.held slot = some id) (counted : host.references slot = count) :
    ∃ owners, host.slotAt slot = { held := some id, references := count, owners } := by
  cases state : host.slotAt slot with
  | mk held references owners =>
      rw [Host.held, state] at holds
      rw [Host.references, state] at counted
      exact ⟨owners, by rw [← holds, ← counted]⟩

theorem exists_idle (vacant : host.held slot = none) (unreferenced : host.references slot = 0) :
    ∃ owners, host.Idle slot owners := by
  cases state : host.slotAt slot with
  | mk held references owners =>
      rw [Host.held, state] at vacant
      rw [Host.references, state] at unreferenced
      refine ⟨owners, ?_⟩
      rw [Idle, state, ← unreferenced]
      exact congrArg (fun held => Slot.mk held references owners) vacant

theorem Serves.keepSlot (serves : host.Serves slot owners id engine count) (counts : 0 < count) :
    (host.keepSlot slot).Serves slot (owners + 1) id engine count where
  slotAt := by
    have present := slot?_of_references (serves.references.symm ▸ counts : 0 < host.references slot)
    simp only [Host.slotAt, slot?, Host.keepSlot, Dictionary.find?_update, if_true]
    rw [slot?] at present
    simp only [present, Option.map_some, Option.getD_some, serves.slotAt]
  tenant := serves.tenant

theorem Serves.replaceEngine (serves : host.Serves slot owners id engine count) (world : World)
    (changed : E) :
    (({ host with world } : Host World E).replaceEngine id changed).Serves slot owners id changed
      count where
  slotAt := serves.slotAt
  tenant := by
    simp only [Host.replaceEngine, Dictionary.find?_update, if_true, serves.tenant]
    rfl

theorem replaceEngine_same (present : host.engine? id = some engine) :
    host.replaceEngine id engine = host := by
  rw [engine?, Option.map_eq_some_iff] at present
  obtain ⟨tenant, found, rfl⟩ := present
  rw [Host.replaceEngine, Dictionary.update_unchanged found rfl]

variable [Engine World E]

theorem dropSlot_eq (kept : 1 < (host.slotAt slot).owners) :
    host.dropSlot slot = host.setSlot slot
      { host.slotAt slot with owners := (host.slotAt slot).owners - 1 } := by
  cases found : host.slot? slot with
  | none =>
      rw [slotAt, found] at kept
      exact absurd kept (Nat.lt_irrefl 1)
  | some state =>
      rw [slotAt, found, Option.getD_some] at kept
      simp only [dropSlot, slotAt, found, Option.getD_some, if_pos kept]

theorem Serves.dropSlot (serves : host.Serves slot (owners + 1) id engine count)
    (kept : 0 < owners) : (host.dropSlot slot).Serves slot owners id engine count := by
  have several : 1 < (host.slotAt slot).owners := by
    rw [serves.slotAt]
    exact Nat.succ_lt_succ kept
  rw [dropSlot_eq several, serves.slotAt]
  exact ⟨by rw [slotAt_setSlot, if_pos rfl]; rfl, serves.tenant⟩

theorem Idle.dropSlot (idle : host.Idle slot (owners + 1)) (kept : 0 < owners) :
    (host.dropSlot slot).Idle slot owners := by
  have state : host.slotAt slot = { owners := owners + 1 } := idle
  have several : 1 < (host.slotAt slot).owners := by
    rw [state]
    exact Nat.succ_lt_succ kept
  rw [dropSlot_eq several, state]
  exact (slotAt_setSlot host slot slot _).trans (if_pos rfl)

theorem world_dropSlot (kept : 1 < (host.slotAt slot).owners) :
    (host.dropSlot slot).world = host.world := by
  rw [dropSlot_eq kept]
  rfl

theorem Idle.acquire {options : TableOptions} (idle : host.Idle slot owners)
    (valid : settings.tableOptions = .ok options)
    (opening : Engine.openAt options host.world = (.ok engine, world)) :
    ∃ id next, host.acquire slot settings = (.ok id, next) ∧ next.world = world ∧
      next.Serves slot owners id engine 1 := by
  have state : host.slotAt slot = { owners } := idle
  refine ⟨_, _, acquire_opens idle.held valid opening, rfl, ?_, ?_⟩
  · rw [slotAt_setSlot, if_pos rfl, idle.references, state]
  · exact Dictionary.find?_set_self _ _ _

theorem Serves.acquire (serves : host.Serves slot owners id engine count) (settings : Settings) :
    ∃ next, host.acquire slot settings = (.ok id, next) ∧ next.world = host.world ∧
      next.Serves slot owners id engine (count + 1) := by
  refine ⟨_, acquire_held serves.holds settings, rfl, ?_, ?_⟩
  · have state : (host.cloneHandle id).slotAt slot = _ := serves.slotAt
    rw [recounted, slotAt_setSlot, if_pos rfl, state, serves.references]
  · change (host.cloneHandle id).tenants.find? id = _
    rw [tenants_cloneHandle, if_pos rfl, serves.tenant]
    rfl

theorem slotAt_returned (host : Host World E) (slot : SlotId) (handle : EngineId) :
    (host.returned slot handle).slotAt slot =
      { host.slotAt slot with references := host.references slot - 1 } := by
  rw [returned, slotAt_dropHandle, recounted, slotAt_setSlot, if_pos rfl]

theorem Serves.release (serves : host.Serves slot owners id engine (count + 1))
    (more : 0 < count) :
    ∃ next, host.release slot id = (.ok (), next) ∧ next.world = host.world ∧
      next.Serves slot owners id engine count := by
  have several : 1 < host.references slot := by
    rw [serves.references]
    exact Nat.succ_lt_succ more
  refine ⟨_, release_several several id, ?_, ?_, ?_⟩
  · rw [world_returned, world_dropHandle_held serves.isHeld]
  · rw [slotAt_returned, serves.references, serves.slotAt]
    rfl
  · rw [tenants_returned_held slot id serves.isHeld serves.tenant, serves.otherHandles]
    rfl

theorem Serves.release_last {outcome : Except Fault Unit}
    (serves : host.Serves slot owners id engine 1)
    (closing : Engine.close engine host.world = (outcome, world)) :
    ∃ next, host.release slot id = (outcome, next) ∧ next.world = world ∧
      next.Idle slot owners := by
  have released := release_closes serves.references serves.holds serves.tenant serves.otherHandles
  rw [world_dropHandle_held serves.isHeld, closing] at released
  refine ⟨_, released, rfl, ?_⟩
  unfold Idle
  rw [slotAt_setSlot, if_pos rfl, serves.slotAt]

end Host

end RowStore
