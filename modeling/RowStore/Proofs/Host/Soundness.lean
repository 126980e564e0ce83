import RowStore.Proofs.Host.Tenancy

/-!
An engine leaves its slot by one event only: the release that gives back the last reference together
with the last handle. Everything else leaves the engines in the slots, whatever becomes of the
handles, and puts one at most into a slot that has none.
-/

namespace RowStore

namespace Host

variable {World E : Type} {host after middle : Host World E}
  {slot other : SlotId} {id handle : EngineId}

/-- The engines of the slots are there, each in one slot, and a slot with references has one. -/
structure Sound (host : Host World E) : Prop where
  known : ∀ id, host.nextEngine ≤ id → host.engine? id = none
  alive : ∀ slot id, host.held slot = some id → (host.engine? id).isSome = true
  apart : ∀ slot other id, host.held slot = some id → host.held other = some id → slot = other
  opened : ∀ slot, 0 < host.references slot → (host.held slot).isSome = true

theorem sound_new (world : World) : Sound ({ world } : Host World E) where
  known _ _ := rfl
  alive _ _ holds := by cases holds
  apart _ _ _ holds := by cases holds
  opened _ counts := absurd counts (Nat.lt_irrefl 0)

theorem Sound.ne_nextEngine (sound : Sound host) (alive : (host.engine? id).isSome = true) :
    id ≠ host.nextEngine := by
  rintro rfl
  rw [sound.known _ (Nat.le_refl _)] at alive
  cases alive

theorem Sound.exists_tenant (sound : Sound host) (holds : host.held slot = some id) :
    ∃ tenant, host.tenants.find? id = some tenant :=
  Host.exists_tenant (sound.alive slot id holds)

/-- Whatever becomes of the handles, the slots hold the engines they held. -/
structure KeepsHeld (host after : Host World E) : Prop where
  held : ∀ slot, after.held slot = host.held slot
  engines : ∀ id, host.isHeld id = true → after.engine? id = host.engine? id
  grows : host.nextEngine ≤ after.nextEngine
  known : ∀ id, after.nextEngine ≤ id → host.engine? id = none → after.engine? id = none

namespace KeepsHeld

theorem trans (first : KeepsHeld host middle) (second : KeepsHeld middle after) :
    KeepsHeld host after where
  held slot := (second.held slot).trans (first.held slot)
  engines id isHeld := by
    have stillHeld : middle.isHeld id = true := by
      obtain ⟨slot, holds⟩ := isHeld_iff.mp isHeld
      exact isHeld_iff.mpr ⟨slot, (first.held slot).trans holds⟩
    rw [second.engines id stillHeld, first.engines id isHeld]
  grows := Nat.le_trans first.grows second.grows
  known id new absent :=
    second.known id new (first.known id (Nat.le_trans second.grows new) absent)

theorem elapse (host : Host World E) (world : World) : KeepsHeld host { host with world } :=
  ⟨fun _ => rfl, fun _ _ => rfl, Nat.le_refl _, fun _ _ absent => absent⟩

theorem recounted (host : Host World E) (slot : SlotId) (count : Nat) :
    KeepsHeld host (host.recounted slot count) :=
  ⟨fun other => host.held_recounted slot other count, fun _ _ => rfl, Nat.le_refl _,
    fun _ _ absent => absent⟩

theorem cloneHandle (host : Host World E) (handle : EngineId) :
    KeepsHeld host (host.cloneHandle handle) where
  held _ := rfl
  engines id _ := host.engine?_cloneHandle handle id
  grows := Nat.le_refl _
  known id _ absent := (host.engine?_cloneHandle handle id).trans absent

theorem acquired (host : Host World E) (slot : SlotId) (handle : EngineId) (count : Nat) :
    KeepsHeld host ((host.cloneHandle handle).recounted slot count) :=
  (cloneHandle host handle).trans (recounted _ slot count)

end KeepsHeld

theorem Sound.of_keepsHeld (sound : Sound host) (keeps : KeepsHeld host after)
    (opened : ∀ slot, 0 < after.references slot → (host.held slot).isSome = true) :
    Sound after where
  known id new := keeps.known id new (sound.known id (Nat.le_trans keeps.grows new))
  alive slot id holds := by
    rw [keeps.held] at holds
    rw [keeps.engines id (isHeld_iff.mpr ⟨slot, holds⟩)]
    exact sound.alive slot id holds
  apart slot other id holds otherHolds := by
    rw [keeps.held] at holds otherHolds
    exact sound.apart slot other id holds otherHolds
  opened slot counts := by
    rw [keeps.held]
    exact opened slot counts

theorem engine?_adopt (host : Host World E) (engine : E) (id : EngineId) :
    (host.adopt engine).2.engine? id =
      if id = host.nextEngine then some engine else host.engine? id := by
  simp only [engine?, adopt, Dictionary.find?_set]
  split <;> rfl

theorem Sound.handles_adopt (sound : Sound host) (engine : E) (id : EngineId) :
    (host.adopt engine).2.handles id =
      host.handles id + if host.nextEngine = id then 1 else 0 := by
  by_cases same : host.nextEngine = id
  · subst same
    rw [handles_of_none (sound.known host.nextEngine (Nat.le_refl _))]
    simp only [handles, adopt, Dictionary.find?_set_self, if_true]
  · simp only [handles, adopt, Dictionary.find?_set, if_neg same, if_neg (Ne.symm same),
      Nat.add_zero]

theorem Sound.keepsHeld_adopt (sound : Sound host) (engine : E) :
    KeepsHeld host (host.adopt engine).2 where
  held _ := rfl
  engines id isHeld := by
    obtain ⟨slot, holds⟩ := isHeld_iff.mp isHeld
    rw [engine?_adopt, if_neg (sound.ne_nextEngine (sound.alive slot id holds))]
  grows := Nat.le_succ _
  known id new absent := by
    have different : id ≠ host.nextEngine := Nat.ne_of_gt new
    rw [engine?_adopt, if_neg different, absent]

/-- An engine has come into a slot that held none. -/
structure Opens (host : Host World E) (slot : SlotId) (after : Host World E) : Prop where
  vacant : host.held slot = none
  held : ∀ other, after.held other =
    if other = slot then some host.nextEngine else host.held other
  engine : (after.engine? host.nextEngine).isSome = true
  engines : ∀ id, id ≠ host.nextEngine → after.engine? id = host.engine? id
  nextEngine : after.nextEngine = host.nextEngine + 1
  references : ∀ other, other ≠ slot → after.references other = host.references other

/-- An engine has gone out of its slot, and it is no more. -/
structure Shuts (host : Host World E) (slot : SlotId) (id : EngineId) (after : Host World E) :
    Prop where
  holds : host.held slot = some id
  held : ∀ other, after.held other = if other = slot then none else host.held other
  engine : after.engine? id = none
  engines : ∀ other, other ≠ id → host.isHeld other = true →
    after.engine? other = host.engine? other
  known : ∀ id, host.engine? id = none → after.engine? id = none
  nextEngine : after.nextEngine = host.nextEngine
  references : ∀ other, after.references other =
    if other = slot then 0 else host.references other

theorem Sound.of_opens (sound : Sound host) (opens : Opens host slot after) : Sound after where
  known id new := by
    rw [opens.nextEngine] at new
    rw [opens.engines id (Nat.ne_of_gt new), sound.known id (Nat.le_of_succ_le new)]
  alive other id holds := by
    rw [opens.held] at holds
    split at holds
    · cases holds
      exact opens.engine
    · have alive := sound.alive other id holds
      rw [opens.engines id (sound.ne_nextEngine alive)]
      exact alive
  apart first second id firstHolds secondHolds := by
    -- The new engine is in no other slot, because it was not there before.
    have fresh : ∀ other, host.held other ≠ some host.nextEngine := fun other holds =>
      sound.ne_nextEngine (sound.alive other _ holds) rfl
    rw [opens.held] at firstHolds secondHolds
    split at firstHolds
    · rename_i isFirst
      cases firstHolds
      split at secondHolds
      · rename_i isSecond
        exact isFirst.trans isSecond.symm
      · exact absurd secondHolds (fresh second)
    · split at secondHolds
      · cases secondHolds
        exact absurd firstHolds (fresh first)
      · exact sound.apart first second id firstHolds secondHolds
  opened other counts := by
    rw [opens.held]
    split
    · rfl
    · rename_i different
      rw [opens.references other different] at counts
      exact sound.opened other counts

theorem Sound.of_shuts (sound : Sound host) (shuts : Shuts host slot id after) : Sound after where
  known new beyond := by
    rw [shuts.nextEngine] at beyond
    exact shuts.known new (sound.known new beyond)
  alive other held holds := by
    rw [shuts.held] at holds
    split at holds
    · cases holds
    · rename_i different
      have apart : held ≠ id := by
        rintro rfl
        exact different (sound.apart other slot held holds shuts.holds)
      rw [shuts.engines held apart (isHeld_iff.mpr ⟨other, holds⟩)]
      exact sound.alive other held holds
  apart first second held firstHolds secondHolds := by
    rw [shuts.held] at firstHolds secondHolds
    split at firstHolds
    · cases firstHolds
    · split at secondHolds
      · cases secondHolds
      · exact sound.apart first second held firstHolds secondHolds
  opened other counts := by
    rw [shuts.references] at counts
    rw [shuts.held]
    split at counts
    · exact absurd counts (Nat.lt_irrefl 0)
    · rename_i different
      rw [if_neg different]
      exact sound.opened other counts

variable [Engine World E]

theorem KeepsHeld.dropHandle (host : Host World E) (handle : EngineId) :
    KeepsHeld host (host.dropHandle handle) where
  held slot := host.held_dropHandle handle slot
  engines _ isHeld := engine?_dropHandle_held handle isHeld
  grows := Nat.le_of_eq (host.nextEngine_dropHandle handle).symm
  known _ _ absent := engine?_dropHandle_of_none handle absent

theorem KeepsHeld.returned (host : Host World E) (slot : SlotId) (handle : EngineId) :
    KeepsHeld host (host.returned slot handle) :=
  (recounted host slot _).trans (.dropHandle _ handle)

theorem acquire_cases (host : Host World E) (slot : SlotId) (settings : Settings) :
    (∃ id, host.held slot = some id ∧ host.acquire slot settings =
        (.ok id, (host.cloneHandle id).recounted slot (host.references slot + 1))) ∨
      (∃ fault world, host.held slot = none ∧
        host.acquire slot settings = (.error fault, { host with world })) ∨
      ∃ id, (host.acquire slot settings).1 = .ok id ∧
        Opens host slot (host.acquire slot settings).2 ∧
        (host.acquire slot settings).2.references slot = host.references slot + 1 := by
  cases holds : host.held slot with
  | some id => exact Or.inl ⟨id, rfl, acquire_held holds settings⟩
  | none =>
      rcases acquire_vacant holds settings with
        ⟨fault, world, failed⟩ | ⟨options, engine, world, _, _, acquired⟩
      · exact Or.inr (Or.inl ⟨fault, world, rfl, failed⟩)
      · have adopted := engine?_adopt { host with world } engine
        refine Or.inr (Or.inr ⟨host.nextEngine, by rw [acquired], ?_, ?_⟩)
        · rw [acquired]
          exact {
            vacant := holds
            held := fun other => held_setSlot _ slot other _
            engine := by
              rw [engine?_setSlot, adopted]
              simp
            engines := fun id different => by
              rw [engine?_setSlot, adopted, if_neg different]
              rfl
            nextEngine := rfl
            references := fun other different => by
              rw [references_setSlot, if_neg different]
              rfl }
        · rw [acquired, references_setSlot, if_pos rfl]

theorem shuts_release {tenant : Tenant E} (last : host.references slot = 1)
    (holds : host.held slot = some id) (found : host.tenants.find? id = some tenant)
    (alone : host.otherHandles id handle = 0) :
    Shuts host slot id (host.release slot handle).2 := by
  have closing := release_closes last holds found alone
  have keeps := KeepsHeld.returned host slot handle
  -- The engine is taken out of what is left once the handle has been returned.
  have erased : ∀ sought, (host.release slot handle).2.engine? sought =
      if sought = id then none else (host.returned slot handle).engine? sought := by
    intro sought
    rw [closing]
    simp only [engine?, setSlot, Dictionary.find?_erase]
    split <;> rfl
  exact {
    holds := holds
    held := by
      intro other
      rw [closing, held_setSlot]
      split
      · rfl
      · exact keeps.held other
    engine := by rw [erased, if_pos rfl]
    engines := by
      intro other different isHeld
      rw [erased, if_neg different, keeps.engines other isHeld]
    known := by
      intro other absent
      rw [erased]
      split
      · rfl
      · exact engine?_returned_of_none handle absent
    nextEngine := by
      rw [closing]
      exact nextEngine_dropHandle _ handle
    references := by
      intro other
      rw [closing, references_setSlot]
      split
      · rfl
      · rename_i different
        have counted := references_returned host slot other handle
        rwa [if_neg different] at counted }

/-- A release keeps the engines in the slots, unless it gives back the last reference together with
the last handle. -/
theorem Sound.release_cases (sound : Sound host) (slot : SlotId) (handle : EngineId) :
    (host.references slot = 0 ∧ host.release slot handle =
        (.error (.storage .unmatchedRelease), host.dropHandle handle)) ∨
      (1 < host.references slot ∧ host.release slot handle =
        (.ok (), host.returned slot handle)) ∨
      ∃ id tenant, host.references slot = 1 ∧ host.held slot = some id ∧
        host.tenants.find? id = some tenant ∧
        (0 < host.otherHandles id handle ∧ host.release slot handle =
            (.error (.storage (.stillInUse (host.otherHandles id handle))),
              host.returned slot handle) ∨
          host.otherHandles id handle = 0 ∧
            ((host.release slot handle).1, (host.release slot handle).2.world) =
              Engine.close tenant.engine (host.dropHandle handle).world ∧
            Shuts host slot id (host.release slot handle).2) := by
  have sizes : host.references slot = 0 ∨ 1 < host.references slot ∨ host.references slot = 1 := by
    omega
  rcases sizes with none | several | last
  · exact Or.inl ⟨none, release_unmatched none handle⟩
  · exact Or.inr (Or.inl ⟨several, release_several several handle⟩)
  · obtain ⟨id, holds⟩ := Option.isSome_iff_exists.mp (sound.opened slot (by omega))
    obtain ⟨tenant, found⟩ := sound.exists_tenant holds
    refine Or.inr (Or.inr ⟨id, tenant, last, holds, found, ?_⟩)
    by_cases others : 0 < host.otherHandles id handle
    · exact Or.inl ⟨others, release_refused last holds found others⟩
    · have alone := Nat.eq_zero_of_not_pos others
      refine Or.inr ⟨alone, ?_, shuts_release last holds found alone⟩
      rw [release_closes last holds found alone]
      rfl

/-- A release gives its handle back in every case. -/
theorem Sound.handles_release (sound : Sound host) (slot : SlotId) (handle id : EngineId) :
    (host.release slot handle).2.handles id = host.otherHandles id handle := by
  have returned : (host.returned slot handle).handles id = host.otherHandles id handle :=
    handles_dropHandle _ handle id
  rcases sound.release_cases slot handle with
    ⟨_, unmatched⟩ | ⟨_, several⟩ | ⟨shut, tenant, last, holds, found, ⟨_, refused⟩ | ⟨alone, _⟩⟩
  · rw [unmatched]
    exact handles_dropHandle host handle id
  · rw [several, returned]
  · rw [refused, returned]
  · rw [release_closes last holds found alone]
    by_cases same : id = shut
    · subst same
      rw [alone]
      simp only [handles, setSlot, Dictionary.find?_erase, if_true]
    · rw [← returned]
      simp only [handles, setSlot, Dictionary.find?_erase, if_neg same]

theorem Sound.handles_acquire (sound : Sound host) (slot : SlotId) (settings : Settings)
    (id : EngineId) :
    (host.acquire slot settings).2.handles id = host.handles id +
      if (host.acquire slot settings).1.toOption = some id then 1 else 0 := by
  cases holds : host.held slot with
  | some engine =>
      rw [acquire_held holds settings]
      simp only [handles_recounted, handles_cloneHandle (sound.alive slot engine holds),
        Except.toOption, Option.some.injEq]
  | none =>
      rcases acquire_vacant holds settings with
        ⟨fault, world, failed⟩ | ⟨options, engine, world, _, _, acquired⟩
      · rw [failed]
        rfl
      · rw [acquired]
        have adopted :=
          (sound.of_keepsHeld (.elapse host world) sound.opened).handles_adopt engine id
        simp only [Except.toOption, Option.some.injEq]
        exact adopted

end Host

end RowStore
