import RowStore.Proofs.Host.Soundness

namespace RowStore

/-- What is done to a host. An event on a handle that is not there is passed over. -/
inductive SharingEvent (World E : Type)
  | acquire (slot : SlotId) (settings : Settings)
  | release (slot : SlotId) (handle : EngineId)
  | clone (handle : EngineId)
  | drop (handle : EngineId)
  /-- An engine from elsewhere, with one handle on it. -/
  | adopt (engine : E)
  /-- Anything that happens in the world outside. -/
  | elapse (world : World)

namespace Host

variable {World E : Type} [Engine World E] {host : Host World E} {slot : SlotId}
  {id handle : EngineId} {event : SharingEvent World E}

def step (host : Host World E) : SharingEvent World E → Host World E
  | .acquire slot settings => (host.acquire slot settings).2
  | .release slot handle => if 0 < host.handles handle then (host.release slot handle).2 else host
  | .clone handle => if 0 < host.handles handle then host.cloneHandle handle else host
  | .drop handle => if 0 < host.handles handle then host.dropHandle handle else host
  | .adopt engine => (host.adopt engine).2
  | .elapse world => { host with world }

def run (host : Host World E) (events : List (SharingEvent World E)) : Host World E :=
  events.foldl step host

/-- The one event that takes the engine `id` out of its slot: the last reference to the slot is
given back, and no handle on the engine is left. -/
def Closes (host : Host World E) (slot : SlotId) (id : EngineId) : SharingEvent World E → Prop
  | .release other handle => other = slot ∧ 0 < host.handles handle ∧ host.references slot = 1 ∧
      host.otherHandles id handle = 0
  | _ => False

/-- The event gains the slot a reference. -/
def acquires (slot : SlotId) (host : Host World E) : SharingEvent World E → Bool
  | .acquire other settings => decide (other = slot) && (host.acquire other settings).1.isOk
  | _ => false

/-- The event gives back a reference that the slot counts. -/
def returns (slot : SlotId) (host : Host World E) : SharingEvent World E → Bool
  | .release other handle =>
      decide (other = slot ∧ 0 < host.handles handle ∧ 0 < host.references slot)
  | _ => false

/-- The event makes a handle on the engine. -/
def takes (id : EngineId) (host : Host World E) : SharingEvent World E → Bool
  | .acquire slot settings => decide ((host.acquire slot settings).1.toOption = some id)
  | .clone handle => decide (handle = id ∧ 0 < host.handles handle)
  | .adopt _ => decide (host.nextEngine = id)
  | _ => false

/-- The event gives up a handle on the engine that there is. -/
def gives (id : EngineId) (host : Host World E) : SharingEvent World E → Bool
  | .release _ handle | .drop handle => decide (handle = id ∧ 0 < host.handles handle)
  | _ => false

/-- What may have become of the world over an event at which no engine is closed: one may have been
opened, or one that is in no slot been given up with the last handle on it. -/
def Unclosed (host : Host World E) (event : SharingEvent World E) (world : World) : Prop :=
  match event with
  | .acquire _ settings => world = host.world ∨
      ∃ options, settings.tableOptions = .ok options ∧
        world = (Engine.openAt (E := E) options host.world).2
  | .release _ handle | .drop handle => world = host.world ∨
      ∃ engine, host.engine? handle = some engine ∧ host.handles handle ≤ 1 ∧
        host.isHeld handle = false ∧ world = Engine.abandoned engine host.world
  | .clone _ | .adopt _ => world = host.world
  | .elapse outside => world = outside

/-- How many of the events do this, each in the state that it meets. -/
def tally (does : Host World E → SharingEvent World E → Bool) :
    Host World E → List (SharingEvent World E) → Nat
  | _, [] => 0
  | host, event :: later => (does host event).toNat + tally does (host.step event) later

theorem Sound.step_cases (sound : Sound host) (event : SharingEvent World E) :
    (KeepsHeld host (host.step event) ∧
        ∀ slot, 0 < (host.step event).references slot → (host.held slot).isSome = true) ∨
      (∃ slot, Opens host slot (host.step event)) ∨
      ∃ slot id, Closes host slot id event ∧ Shuts host slot id (host.step event) := by
  have unchanged : KeepsHeld host host := .elapse host host.world
  cases event with
  | acquire slot settings =>
      rcases host.acquire_cases slot settings with
        ⟨id, holds, acquired⟩ | ⟨fault, world, _, failed⟩ | ⟨id, _, opens, _⟩
      · refine Or.inl ⟨?_, ?_⟩
        · rw [step, acquired]
          exact .acquired host slot id _
        · intro other counts
          rw [step, acquired, references_recounted] at counts
          split at counts
          · rename_i same
            rw [same, holds]
            rfl
          · exact sound.opened other counts
      · rw [step, failed]
        exact Or.inl ⟨.elapse host world, sound.opened⟩
      · exact Or.inr (Or.inl ⟨slot, opens⟩)
  | release slot handle =>
      by_cases live : 0 < host.handles handle
      · have returned : ∀ other, 0 < (host.returned slot handle).references other →
            (host.held other).isSome = true := by
          intro other counts
          apply sound.opened other
          rw [references_returned] at counts
          split at counts
          · rename_i same
            rw [same]
            omega
          · exact counts
        simp only [step, if_pos live]
        rcases sound.release_cases slot handle with
          ⟨_, unmatched⟩ | ⟨_, several⟩ | ⟨id, tenant, last, _, _, last'⟩
        · rw [unmatched]
          refine Or.inl ⟨.dropHandle host handle, fun other counts => sound.opened other ?_⟩
          rwa [references_dropHandle] at counts
        · rw [several]
          exact Or.inl ⟨.returned host slot handle, returned⟩
        · rcases last' with ⟨_, refused⟩ | ⟨alone, _, shuts⟩
          · rw [refused]
            exact Or.inl ⟨.returned host slot handle, returned⟩
          · exact Or.inr (Or.inr ⟨slot, id, ⟨rfl, live, last, alone⟩, shuts⟩)
      · simp only [step, if_neg live]
        exact Or.inl ⟨unchanged, sound.opened⟩
  | clone handle =>
      simp only [step]
      split
      · exact Or.inl ⟨.cloneHandle host handle, sound.opened⟩
      · exact Or.inl ⟨unchanged, sound.opened⟩
  | drop handle =>
      simp only [step]
      split
      · refine Or.inl ⟨.dropHandle host handle, fun other counts => sound.opened other ?_⟩
        rwa [references_dropHandle] at counts
      · exact Or.inl ⟨unchanged, sound.opened⟩
  | adopt engine => exact Or.inl ⟨sound.keepsHeld_adopt engine, sound.opened⟩
  | elapse world => exact Or.inl ⟨.elapse host world, sound.opened⟩

theorem Sound.step (sound : Sound host) (event : SharingEvent World E) :
    Sound (host.step event) := by
  rcases sound.step_cases event with ⟨keeps, opened⟩ | ⟨slot, opens⟩ | ⟨slot, id, _, shuts⟩
  · exact sound.of_keepsHeld keeps opened
  · exact sound.of_opens opens
  · exact sound.of_shuts shuts

theorem Sound.stays (sound : Sound host) (holds : host.held slot = some id)
    (open' : ¬ Closes host slot id event) :
    (host.step event).held slot = some id ∧ (host.step event).engine? id = host.engine? id := by
  have alive := sound.alive slot id holds
  rcases sound.step_cases event with ⟨keeps, _⟩ | ⟨other, opens⟩ | ⟨other, shut, closes, shuts⟩
  · exact ⟨(keeps.held slot).trans holds, keeps.engines id (isHeld_iff.mpr ⟨slot, holds⟩)⟩
  · have different : slot ≠ other := by
      rintro rfl
      rw [opens.vacant] at holds
      cases holds
    refine ⟨?_, opens.engines id (sound.ne_nextEngine alive)⟩
    rw [opens.held, if_neg different, holds]
  · have different : slot ≠ other := by
      rintro rfl
      rw [shuts.holds] at holds
      cases holds
      exact open' closes
    have apart : id ≠ shut := by
      rintro rfl
      exact different (sound.apart slot other id holds shuts.holds)
    refine ⟨?_, shuts.engines id apart (isHeld_iff.mpr ⟨slot, holds⟩)⟩
    rw [shuts.held, if_neg different, holds]

theorem references_acquire (host : Host World E) (slot other : SlotId) (settings : Settings) :
    (host.acquire other settings).2.references slot =
      host.references slot +
        (decide (other = slot) && (host.acquire other settings).1.isOk).toNat := by
  rcases host.acquire_cases other settings with
    ⟨id, _, acquired⟩ | ⟨fault, world, _, failed⟩ | ⟨id, acquired, opens, counted⟩
  · rw [acquired, references_recounted, references_cloneHandle]
    by_cases same : other = slot
    · subst same
      simp [Except.isOk, Except.toBool]
    · simp [same, Ne.symm same]
  · rw [failed]
    simp [Except.isOk, Except.toBool, references, slotAt, slot?]
  · rw [acquired]
    by_cases same : other = slot
    · subst same
      simp [counted, Except.isOk, Except.toBool]
    · simp [same, opens.references slot (Ne.symm same)]

theorem Sound.references_release (sound : Sound host) (slot other : SlotId) (handle : EngineId) :
    (host.release other handle).2.references slot =
      host.references slot - if other = slot then 1 else 0 := by
  have returned : (host.returned other handle).references slot =
      host.references slot - if other = slot then 1 else 0 := by
    rw [references_returned]
    by_cases same : slot = other
    · rw [if_pos same, if_pos same.symm, same]
    · rw [if_neg same, if_neg (Ne.symm same), Nat.sub_zero]
  rcases sound.release_cases other handle with
    ⟨none, unmatched⟩ | ⟨_, several⟩ | ⟨id, tenant, last, _, _, ⟨_, refused⟩ | ⟨_, _, shuts⟩⟩
  · rw [unmatched, references_dropHandle]
    split
    · rename_i same
      rw [← same, none]
    · rfl
  · rw [several, returned]
  · rw [refused, returned]
  · rw [shuts.references]
    by_cases same : slot = other
    · rw [if_pos same, if_pos same.symm, same, last]
    · rw [if_neg same, if_neg (Ne.symm same), Nat.sub_zero]

theorem Sound.references_step (sound : Sound host) (slot : SlotId)
    (event : SharingEvent World E) :
    (host.step event).references slot + (returns slot host event).toNat =
      host.references slot + (acquires slot host event).toNat := by
  cases event with
  | acquire other settings => exact host.references_acquire slot other settings
  | release other handle =>
      by_cases live : 0 < host.handles handle
      · simp only [Host.step, if_pos live, sound.references_release, returns, acquires]
        by_cases same : other = slot
        · by_cases counts : 0 < host.references slot
          · simp only [same, if_true, live, counts, and_self, decide_true, Bool.toNat_true]
            exact Nat.sub_add_cancel counts
          · simp [same, Nat.eq_zero_of_not_pos counts]
        · simp [same]
      · simp [Host.step, live, returns, acquires]
  | clone handle =>
      simp only [Host.step, returns, acquires]
      split <;> rfl
  | drop handle =>
      simp only [Host.step, returns, acquires]
      split
      · rw [references_dropHandle]
      · rfl
  | adopt engine => rfl
  | elapse world => rfl

theorem Sound.handles_step (sound : Sound host) (id : EngineId) (event : SharingEvent World E) :
    (host.step event).handles id + (gives id host event).toNat =
      host.handles id + (takes id host event).toNat := by
  -- A handle that is given up has been there.
  have given : ∀ handle, 0 < host.handles handle →
      host.otherHandles id handle + (decide (handle = id ∧ 0 < host.handles handle)).toNat =
        host.handles id := by
    intro handle live
    rw [otherHandles]
    by_cases same : handle = id
    · subst same
      simp only [if_true, live, and_self, decide_true, Bool.toNat_true]
      omega
    · simp [same]
  cases event with
  | acquire slot settings =>
      simp only [Host.step, sound.handles_acquire, gives, takes]
      split
      · rename_i acquired
        simp [acquired]
      · rename_i other
        simp [other]
  | release slot handle =>
      by_cases live : 0 < host.handles handle
      · simp only [Host.step, if_pos live, sound.handles_release, gives, takes, given handle live,
          Bool.toNat_false, Nat.add_zero]
      · simp [Host.step, live, gives, takes]
  | clone handle =>
      by_cases live : 0 < host.handles handle
      · simp only [Host.step, if_pos live, handles_cloneHandle (isSome_of_handles live), gives,
          takes]
        by_cases same : handle = id
        · simp [same, same ▸ live]
        · simp [same]
      · simp [Host.step, live, gives, takes]
  | drop handle =>
      by_cases live : 0 < host.handles handle
      · simp only [Host.step, if_pos live, handles_dropHandle, gives, takes, given handle live,
          Bool.toNat_false, Nat.add_zero]
      · simp [Host.step, live, gives, takes]
  | adopt engine =>
      simp only [Host.step, sound.handles_adopt, gives, takes]
      by_cases same : host.nextEngine = id <;> simp [same]
  | elapse world => rfl

theorem acquire_unclosed (host : Host World E) (slot : SlotId) (settings : Settings) :
    Unclosed host (.acquire slot settings) (host.acquire slot settings).2.world := by
  cases holds : host.held slot with
  | some id =>
      rw [acquire_held holds settings]
      exact Or.inl rfl
  | none =>
      have vacant : ((host.slot? slot).getD {}).held = none := holds
      cases valid : settings.tableOptions with
      | error fault =>
          simp only [acquire, vacant, openInto, valid]
          exact Or.inl rfl
      | ok options =>
          refine Or.inr ⟨options, valid, ?_⟩
          simp only [acquire, vacant, openInto, valid]
          split
          · rename_i failed
            rw [failed]
          · rename_i opened
            rw [opened]
            rfl

/-- No engine is closed but by the release that takes it out of its slot. -/
theorem Sound.step_unclosed (sound : Sound host) (event : SharingEvent World E)
    (open' : ∀ slot id, host.held slot = some id → ¬ Closes host slot id event) :
    Unclosed host event (host.step event).world := by
  cases event with
  | acquire slot settings => exact host.acquire_unclosed slot settings
  | release slot handle =>
      by_cases live : 0 < host.handles handle
      · have dropped := host.world_dropHandle_cases handle
        simp only [Host.step, if_pos live]
        rcases sound.release_cases slot handle with
          ⟨_, unmatched⟩ | ⟨_, several⟩ | ⟨id, _, last, holds, _, ⟨_, refused⟩ | ⟨alone, _⟩⟩
        · rwa [unmatched]
        · rw [several, world_returned]
          exact dropped
        · rw [refused, world_returned]
          exact dropped
        · exact absurd ⟨rfl, live, last, alone⟩ (open' slot id holds)
      · rw [Host.step, if_neg live]
        exact Or.inl rfl
  | clone handle =>
      simp only [Host.step]
      split <;> rfl
  | drop handle =>
      simp only [Host.step]
      split
      · exact host.world_dropHandle_cases handle
      · exact Or.inl rfl
  | adopt engine => rfl
  | elapse world => rfl

theorem Sound.run (sound : Sound host) (events : List (SharingEvent World E)) :
    Sound (host.run events) := by
  induction events generalizing host with
  | nil => exact sound
  | cons event later ih => exact ih (sound.step event)

/-- What grows by the events that gain, and falls by those that lose, counts them both. -/
theorem Sound.tally_run (sound : Sound host) (count : Host World E → Nat)
    (loses gains : Host World E → SharingEvent World E → Bool)
    (counts : ∀ host : Host World E, Sound host → ∀ event,
      count (host.step event) + (loses host event).toNat = count host + (gains host event).toNat)
    (events : List (SharingEvent World E)) :
    count (host.run events) + host.tally loses events =
      count host + host.tally gains events := by
  induction events generalizing host with
  | nil => rfl
  | cons event later ih =>
      have first := counts host sound event
      have rest := ih (sound.step event)
      change count ((host.step event).run later) + _ = _
      simp only [tally]
      omega

theorem Sound.run_unreferenced (sound : Sound host) (holds : host.held slot = some id)
    (unreferenced : host.references slot = 0) (events : List (SharingEvent World E))
    (waiting : ∀ settings, .acquire slot settings ∉ events) :
    (host.run events).held slot = some id ∧ (host.run events).references slot = 0 ∧
      (host.run events).engine? id = host.engine? id := by
  induction events generalizing host with
  | nil => exact ⟨holds, unreferenced, rfl⟩
  | cons event later ih =>
      have notCloses : ¬ Closes host slot id event := by
        intro closes
        cases event with
        | release other handle =>
            have last := closes.2.2.1
            omega
        | _ => exact closes
      have notAcquires : acquires slot host event = false := by
        cases event with
        | acquire other settings =>
            have different : other ≠ slot := by
              rintro rfl
              exact waiting settings List.mem_cons_self
            simp [acquires, different]
        | _ => rfl
      obtain ⟨stillHolds, sameEngine⟩ := sound.stays holds notCloses
      have counted := sound.references_step slot event
      rw [notAcquires, Bool.toNat_false] at counted
      have rest := ih (sound.step event) stillHolds (by omega)
        (fun settings member => waiting settings (List.mem_cons_of_mem _ member))
      rwa [sameEngine] at rest

/-- What a slot promises in a state of its host, whatever is done next. -/
structure SharesSafely (host : Host World E) (slot : SlotId) : Prop where
  opened : 0 < host.references slot → (host.held slot).isSome = true
  alive : ∀ id, host.held slot = some id → (host.engine? id).isSome = true
  /-- While an engine is held it is handed out, and no other is opened. -/
  shared : ∀ id settings, host.held slot = some id →
    (host.acquire slot settings).1 = .ok id ∧
      (host.acquire slot settings).2.world = host.world ∧
      (host.acquire slot settings).2.held slot = some id ∧
      ∀ any, (host.acquire slot settings).2.engine? any = host.engine? any
  failed : ∀ settings fault, (host.acquire slot settings).1 = .error fault →
    (host.acquire slot settings).2.references slot = host.references slot ∧
      (host.acquire slot settings).2.held slot = host.held slot
  unmatched : ∀ handle, host.references slot = 0 →
    (host.release slot handle).1 = .error (.storage .unmatchedRelease) ∧
      (host.release slot handle).2.references slot = 0 ∧
      (host.release slot handle).2.held slot = host.held slot
  /-- No other event takes the engine away, and none that takes no engine away closes any. -/
  stays : ∀ id event, host.held slot = some id → ¬ Closes host slot id event →
    (host.step event).held slot = some id ∧ (host.step event).engine? id = host.engine? id ∧
      ((∀ other shut, host.held other = some shut → ¬ Closes host other shut event) →
        Unclosed host event (host.step event).world)
  /-- The engine is closed as it is, and the slot is free for another, even if closing fails. -/
  closes : ∀ id handle engine, host.held slot = some id → host.engine? id = some engine →
    Closes host slot id (.release slot handle) →
    ((host.release slot handle).1, (host.release slot handle).2.world) =
        Engine.close engine (host.dropHandle handle).world ∧
      (host.release slot handle).2.held slot = none ∧
      (host.release slot handle).2.references slot = 0 ∧
      (host.release slot handle).2.engine? id = none
  /-- Refused, the release has closed no engine and given back its reference. The engine waits in its
  slot for the next one to acquire it. -/
  refused : ∀ id handle, host.held slot = some id → 0 < host.handles handle →
    host.references slot = 1 → 0 < host.otherHandles id handle →
    (host.release slot handle).1 =
        .error (.storage (.stillInUse (host.otherHandles id handle))) ∧
      Unclosed host (.release slot handle) (host.release slot handle).2.world ∧
      ∀ later, (∀ settings, .acquire slot settings ∉ later) →
        let afterwards := (host.release slot handle).2.run later
        afterwards.held slot = some id ∧ afterwards.references slot = 0 ∧
          afterwards.engine? id = host.engine? id ∧
          ∀ settings, (afterwards.acquire slot settings).1 = .ok id

theorem Sound.sharesSafely (sound : Sound host) (slot : SlotId) : SharesSafely host slot where
  opened := sound.opened slot
  alive := sound.alive slot
  shared id settings holds := by
    rw [acquire_held holds settings]
    refine ⟨rfl, rfl, ?_, fun any => ?_⟩
    · rw [held_recounted, held_cloneHandle, holds]
    · rw [engine?_recounted, engine?_cloneHandle]
  failed settings fault failed := by
    refine ⟨?_, ?_⟩
    · rw [references_acquire, failed]
      simp [Except.isOk, Except.toBool]
    · rcases host.acquire_cases slot settings with
        ⟨id, _, acquired⟩ | ⟨_, world, _, refused⟩ | ⟨id, acquired, _⟩
      · rw [acquired] at failed
        cases failed
      · rw [refused]
        rfl
      · rw [acquired] at failed
        cases failed
  unmatched handle none := by
    rw [release_unmatched none, references_dropHandle, held_dropHandle]
    exact ⟨rfl, none, rfl⟩
  stays id event holds open' := by
    obtain ⟨stillHolds, sameEngine⟩ := sound.stays holds open'
    exact ⟨stillHolds, sameEngine, sound.step_unclosed event⟩
  closes id handle engine holds present closes := by
    obtain ⟨-, -, last, alone⟩ := closes
    rcases sound.release_cases slot handle with
      ⟨none, _⟩ | ⟨several, _⟩ | ⟨_, tenant, _, sameHolds, found, release⟩
    · omega
    · omega
    · rw [holds] at sameHolds
      cases sameHolds
      rw [engine?_eq_some found] at present
      cases present
      rcases release with ⟨others, _⟩ | ⟨_, closed, shuts⟩
      · omega
      · refine ⟨closed, ?_, ?_, shuts.engine⟩
        · rw [shuts.held, if_pos rfl]
        · rw [shuts.references, if_pos rfl]
  refused id handle holds live last others := by
    obtain ⟨tenant, found⟩ := sound.exists_tenant holds
    have refused := release_refused last holds found others
    have step : (host.release slot handle).2 = host.step (.release slot handle) := by
      simp only [Host.step, if_pos live]
    have notCloses : ¬ Closes host slot id (.release slot handle) := by
      rintro ⟨-, -, -, alone⟩
      omega
    obtain ⟨stillHolds, sameEngine⟩ := sound.stays holds notCloses
    have unreferenced : (host.step (.release slot handle)).references slot = 0 := by
      rw [← step, sound.references_release, if_pos rfl, last]
    have unclosed : Unclosed host (.release slot handle) (host.release slot handle).2.world := by
      rw [refused, world_returned]
      exact host.world_dropHandle_cases handle
    refine ⟨by rw [refused], unclosed, fun later waiting => ?_⟩
    rw [step]
    obtain ⟨heldThen, referencesThen, engineThen⟩ :=
      (sound.step (.release slot handle)).run_unreferenced stillHolds unreferenced later waiting
    refine ⟨heldThen, referencesThen, engineThen.trans sameEngine, fun settings => ?_⟩
    rw [acquire_held heldThen settings]

/-- Slots share safely through every sequence of events. Their references are the acquisitions that
succeeded without the releases that found one, and the handles on an engine are those that have been
acquired, cloned or come with it, without those that have been released or dropped. -/
theorem run_shares_safely (world : World) (events : List (SharingEvent World E)) (slot : SlotId) :
    let start : Host World E := { world }
    SharesSafely (start.run events) slot ∧
      (start.run events).references slot + start.tally (returns slot) events =
        start.tally (acquires slot) events ∧
      ∀ id, (start.run events).handles id + start.tally (gives id) events =
        start.tally (takes id) events := by
  have sound := sound_new (E := E) world
  have referred := sound.tally_run (·.references slot) (returns slot) (acquires slot)
    (fun _ sound => sound.references_step slot) events
  have none : ({ world } : Host World E).references slot = 0 := rfl
  rw [none, Nat.zero_add] at referred
  refine ⟨(sound.run events).sharesSafely slot, referred, fun id => ?_⟩
  have handled := sound.tally_run (·.handles id) (gives id) (takes id)
    (fun _ sound => sound.handles_step id) events
  have noHandles : ({ world } : Host World E).handles id = 0 := rfl
  rwa [noHandles, Nat.zero_add] at handled

end Host

end RowStore
