import RowStore.Proofs.Host.Serving

namespace RowStore

inductive Turn
  | acquire (worker : Nat) (settings : Settings)
  /-- The worker gives its latest handle back, if it has one. -/
  | release (worker : Nat)

/-- The settings, if the turn needs any, say where the engine is and give it a page at least. -/
def Turn.Valid : Turn → Prop
  | .acquire _ settings => ∃ options, settings.tableOptions = .ok options
  | .release _ => True

/-- A host with the handles of its workers, latest first. -/
structure Workers (World E : Type) where
  host : Host World E
  holding : List (Nat × EngineId) := []

/-- Every opening and every closing succeeds. -/
structure Reliable (E : Type) {World : Type} [Engine World E] : Prop where
  opens : ∀ options world, ∃ engine after,
    Engine.openAt (E := E) options world = (.ok engine, after)
  closes : ∀ (engine : E) world, ∃ after, Engine.close engine world = (.ok (), after)

/-- Openings and closings can be counted in the outside world. -/
structure Counted (E : Type) {World : Type} [Engine World E] (opens closes : World → Nat) :
    Prop where
  opened : ∀ options world, opens (Engine.openAt (E := E) options world).2 = opens world + 1 ∧
    closes (Engine.openAt (E := E) options world).2 = closes world
  closed : ∀ (engine : E) world, opens (Engine.close engine world).2 = opens world ∧
    closes (Engine.close engine world).2 = closes world + 1

namespace Workers

variable {World E : Type} {workers next : Workers World E} {slot : SlotId}

def engine? (workers : Workers World E) (slot : SlotId) : Option E :=
  (workers.host.held slot).bind workers.host.engine?

/-- The slot holds an engine while workers have handles, the one that all of them are on, and it
counts as many references as there are handles. -/
structure Serving (slot : SlotId) (workers : Workers World E) : Prop where
  references : workers.host.references slot = workers.holding.length
  isOpen : (workers.host.held slot).isSome = true ↔ 0 < workers.holding.length
  together : ∀ worker handle, (worker, handle) ∈ workers.holding →
    workers.host.held slot = some handle
  tenant : ∀ id, workers.host.held slot = some id → ∃ engine,
    workers.host.tenants.find? id = some { engine, handles := workers.holding.length }

theorem Serving.of_idle {host : Host World E} {owners : Nat} (idle : host.Idle slot owners) :
    Serving slot ({ host } : Workers World E) where
  references := idle.references
  isOpen := by simp [idle.held]
  together worker handle member := nomatch member
  tenant id holds := by
    rw [idle.held] at holds
    cases holds

theorem Serving.of_serves {owners count : Nat} {id : EngineId} {engine : E}
    (serves : workers.host.Serves slot owners id engine count) (busy : 0 < count)
    (counted : workers.holding.length = count)
    (together : ∀ worker handle, (worker, handle) ∈ workers.holding → handle = id) :
    Serving slot workers where
  references := by rw [serves.references, counted]
  isOpen := by simpa [serves.holds, counted] using busy
  together worker handle member := by rw [serves.holds, together worker handle member]
  tenant sought holds := by
    rw [serves.holds] at holds
    cases holds
    exact ⟨engine, by rw [serves.tenant, counted]⟩

theorem Serving.idle (serving : Serving slot workers) (none : workers.holding = []) :
    ∃ owners, workers.host.Idle slot owners := by
  have vacant : workers.host.held slot = Option.none := by
    rw [← Option.not_isSome_iff_eq_none, serving.isOpen, none]
    exact Nat.lt_irrefl 0
  have unreferenced : workers.host.references slot = 0 := by rw [serving.references, none]; rfl
  exact Host.exists_idle vacant unreferenced

theorem Serving.serves (serving : Serving slot workers) (busy : workers.holding ≠ []) :
    ∃ owners id engine,
      workers.host.Serves slot owners id engine workers.holding.length ∧
        ∀ worker handle, (worker, handle) ∈ workers.holding → handle = id := by
  have opened := serving.isOpen.mpr (List.length_pos_iff.mpr busy)
  obtain ⟨id, holds⟩ := Option.isSome_iff_exists.mp opened
  obtain ⟨engine, tenant⟩ := serving.tenant id holds
  obtain ⟨owners, slotAt⟩ := Host.slotAt_eq holds serving.references
  refine ⟨owners, id, engine, ⟨slotAt, tenant⟩, fun worker handle member => ?_⟩
  have same := serving.together worker handle member
  rw [holds] at same
  exact (Option.some.inj same).symm

theorem engine?_of_serves (workers : Workers World E) {owners count : Nat} {id : EngineId}
    {engine : E} (serves : workers.host.Serves slot owners id engine count) :
    workers.engine? slot = some engine := by
  rw [engine?, serves.holds]
  exact serves.engine?

variable [Engine World E]

def turn (slot : SlotId) (workers : Workers World E) : Turn → Except Fault (Workers World E)
  | .acquire worker settings =>
      match workers.host.acquire slot settings with
      | (.error fault, _) => .error fault
      | (.ok handle, host) => .ok { host, holding := (worker, handle) :: workers.holding }
  | .release worker =>
      match workers.holding.find? (·.1 = worker) with
      | none => .ok workers
      | some (_, handle) =>
          match workers.host.release slot handle with
          | (.error fault, _) => .error fault
          | (.ok (), host) => .ok { host, holding := workers.holding.eraseP (·.1 = worker) }

/-- Any number of turns, up to the first call that fails. -/
def run (slot : SlotId) (workers : Workers World E) (schedule : List Turn) :
    Except Fault (Workers World E) :=
  schedule.foldlM (turn slot) workers

/-- The engine is opened when the first handle is taken, closed when the last one is given back, and
left alone by every other turn. -/
structure Attended (slot : SlotId) (workers next : Workers World E) : Prop where
  opened : workers.holding = [] → next.holding ≠ [] → ∃ options engine,
    Engine.openAt options workers.host.world = (.ok engine, next.host.world) ∧
      next.engine? slot = some engine
  closed : workers.holding ≠ [] → next.holding = [] → ∃ engine,
    workers.engine? slot = some engine ∧
      Engine.close engine workers.host.world = (.ok (), next.host.world)
  untouched : (workers.holding = [] ↔ next.holding = []) →
    next.host.world = workers.host.world ∧ next.engine? slot = workers.engine? slot

theorem Attended.of_untouched (same : workers.holding = [] ↔ next.holding = [])
    (world : next.host.world = workers.host.world)
    (engine : next.engine? slot = workers.engine? slot) : Attended slot workers next where
  opened idle busy := absurd (same.mp idle) busy
  closed busy idle := absurd (same.mpr idle) busy
  untouched _ := ⟨world, engine⟩

theorem Serving.acquire {settings : Settings} {options : TableOptions}
    (serving : Serving slot workers) (reliable : Reliable E)
    (valid : settings.tableOptions = .ok options) (worker : Nat) :
    ∃ next, workers.turn slot (.acquire worker settings) = .ok next ∧ Serving slot next ∧
      Attended slot workers next := by
  by_cases none : workers.holding = []
  · obtain ⟨owners, idle⟩ := serving.idle none
    obtain ⟨engine, world, opening⟩ := reliable.opens options workers.host.world
    obtain ⟨id, host, acquired, sameWorld, serves⟩ := idle.acquire valid opening
    let next : Workers World E := { host, holding := (worker, id) :: workers.holding }
    refine ⟨next, ?_, .of_serves serves Nat.one_pos (by simp [next, none]) ?_, ?_⟩
    · simp only [turn, acquired, next]
    · intro other handle member
      simp only [next, none, List.mem_singleton, Prod.mk.injEq] at member
      exact member.2
    · exact {
        opened := fun _ _ => ⟨options, engine, by rw [opening, ← sameWorld],
          engine?_of_serves next serves⟩
        closed := fun busy _ => absurd none busy
        untouched := fun same => absurd (same.mp none) (List.cons_ne_nil _ _) }
  · obtain ⟨owners, id, engine, serves, together⟩ := serving.serves none
    obtain ⟨host, acquired, sameWorld, servesNext⟩ := serves.acquire settings
    let next : Workers World E := { host, holding := (worker, id) :: workers.holding }
    refine ⟨next, ?_, .of_serves servesNext (Nat.succ_pos _) rfl ?_,
      .of_untouched (by simp [next, none]) sameWorld ?_⟩
    · simp only [turn, acquired, next]
    · intro other handle member
      rcases List.mem_cons.mp member with same | earlier
      · cases same
        rfl
      · exact together other handle earlier
    · rw [engine?_of_serves workers serves, engine?_of_serves next servesNext]

theorem Serving.release (serving : Serving slot workers) (reliable : Reliable E) (worker : Nat) :
    ∃ next, workers.turn slot (.release worker) = .ok next ∧ Serving slot next ∧
      Attended slot workers next := by
  cases own : workers.holding.find? (·.1 = worker) with
  | none =>
      refine ⟨workers, ?_, serving, .of_untouched Iff.rfl rfl rfl⟩
      simp only [turn, own]
  | some pair =>
      obtain ⟨holder, handle⟩ := pair
      have member : (holder, handle) ∈ workers.holding := List.mem_of_find?_eq_some own
      have mine : holder = worker := by simpa using List.find?_some own
      have busy : workers.holding ≠ [] := List.ne_nil_of_mem member
      obtain ⟨owners, id, engine, serves, together⟩ := serving.serves busy
      cases together holder handle member
      obtain ⟨count, counted⟩ : ∃ count, workers.holding.length = count + 1 :=
        Nat.exists_eq_add_one.mpr (List.length_pos_iff.mpr busy)
      let kept := workers.holding.eraseP (·.1 = worker)
      have fewer : kept.length = count := by
        rw [List.length_eraseP_of_mem member (by simpa using mine), counted]
        rfl
      rw [counted] at serves
      by_cases more : 0 < count
      · obtain ⟨host, released, sameWorld, servesNext⟩ := serves.release more
        let next : Workers World E := { host, holding := kept }
        have stillBusy : next.holding ≠ [] := List.ne_nil_of_length_pos (fewer ▸ more)
        refine ⟨next, ?_, .of_serves servesNext more fewer ?_,
          .of_untouched (by simp [busy, stillBusy]) sameWorld ?_⟩
        · simp only [turn, own, released, next, kept]
        · exact fun other otherHandle left =>
            together other otherHandle (List.mem_of_mem_eraseP left)
        · rw [engine?_of_serves workers serves, engine?_of_serves next servesNext]
      · cases Nat.eq_zero_of_not_pos more
        have nobody : kept = [] := List.length_eq_zero_iff.mp fewer
        obtain ⟨world, closing⟩ := reliable.closes engine workers.host.world
        obtain ⟨host, released, closedWorld, idle⟩ := serves.release_last closing
        refine ⟨{ host }, ?_, .of_idle idle, ?_⟩
        · simp only [turn, own, released]
          exact congrArg (fun holding => Except.ok (Workers.mk host holding)) nobody
        · exact {
            opened := fun none _ => absurd none busy
            closed := fun _ _ =>
              ⟨engine, engine?_of_serves workers serves, by rw [closing, closedWorld]⟩
            untouched := fun same => absurd (same.mpr rfl) busy }

theorem Serving.turn {turn : Turn} (serving : Serving slot workers) (reliable : Reliable E)
    (valid : turn.Valid) :
    ∃ next, workers.turn slot turn = .ok next ∧ Serving slot next ∧
      Attended slot workers next := by
  cases turn with
  | acquire worker settings =>
      obtain ⟨options, readable⟩ := valid
      exact serving.acquire reliable readable worker
  | release worker => exact serving.release reliable worker

/-- How many more openings than closings there are by now. -/
def openings (workers : Workers World E) : Nat :=
  if workers.holding = [] then 0 else 1

theorem Attended.counted {opens closes : World → Nat} (attended : Attended slot workers next)
    (counted : Counted E opens closes) :
    opens next.host.world + closes workers.host.world + workers.openings =
      opens workers.host.world + closes next.host.world + next.openings := by
  unfold openings
  by_cases idle : workers.holding = [] <;> by_cases idleNext : next.holding = []
  · rw [(attended.untouched (by simp [idle, idleNext])).1, if_pos idle, if_pos idleNext]
  · obtain ⟨options, engine, opening, _⟩ := attended.opened idle idleNext
    obtain ⟨opened, notClosed⟩ := counted.opened options workers.host.world
    rw [opening] at opened notClosed
    rw [if_pos idle, if_neg idleNext, opened, notClosed]
    omega
  · obtain ⟨engine, _, closing⟩ := attended.closed idle idleNext
    obtain ⟨notOpened, closed⟩ := counted.closed engine workers.host.world
    rw [closing] at notOpened closed
    rw [if_neg idle, if_pos idleNext, notOpened, closed]
    omega
  · rw [(attended.untouched (by simp [idle, idleNext])).1, if_neg idle, if_neg idleNext]

theorem Serving.run {schedule : List Turn} (serving : Serving slot workers)
    (reliable : Reliable E) (valid : ∀ turn ∈ schedule, turn.Valid) :
    ∃ final, workers.run slot schedule = .ok final ∧ Serving slot final ∧
      ∀ opens closes, Counted E opens closes →
        opens final.host.world + closes workers.host.world + workers.openings =
          opens workers.host.world + closes final.host.world + final.openings := by
  induction schedule generalizing workers with
  | nil => exact ⟨workers, rfl, serving, fun _ _ _ => rfl⟩
  | cons turn later ih =>
      obtain ⟨next, turned, servingNext, attended⟩ :=
        serving.turn reliable (valid turn List.mem_cons_self)
      obtain ⟨final, finished, servingFinal, balanced⟩ :=
        ih servingNext (fun other member => valid other (List.mem_cons_of_mem _ member))
      refine ⟨final, ?_, servingFinal, fun opens closes counted => ?_⟩
      · rw [run, List.foldlM_cons, turned]
        exact finished
      · have first := attended.counted counted
        have rest := balanced opens closes counted
        omega

/-- However the workers take turns, every call succeeds, and the slot's engine is opened for the
first handle and closed with the last. When none is left there are as many closings as openings. -/
theorem run_opens_and_closes_once (reliable : Reliable E) (host : Host World E) (slot : SlotId)
    (vacant : host.held slot = none) (unreferenced : host.references slot = 0)
    (schedule : List Turn) (valid : ∀ turn ∈ schedule, turn.Valid) :
    ∃ workers, ({ host } : Workers World E).run slot schedule = .ok workers ∧
      Serving slot workers ∧
      (∀ turn, turn.Valid → ∃ next, workers.turn slot turn = .ok next ∧
        Serving slot next ∧ Attended slot workers next) ∧
      ∀ opens closes, Counted E opens closes →
        opens workers.host.world + closes host.world =
          opens host.world + closes workers.host.world + workers.openings := by
  obtain ⟨owners, idle⟩ := Host.exists_idle vacant unreferenced
  have start : Serving slot ({ host } : Workers World E) := .of_idle idle
  obtain ⟨workers, finished, serving, balanced⟩ := start.run reliable valid
  exact ⟨workers, finished, serving, fun turn valid => serving.turn reliable valid, balanced⟩

/-- How often engines have been opened and closed. -/
structure Ledger where
  opens : Nat := 0
  closes : Nat := 0

structure LedgerEngine where
  options : TableOptions

instance : Engine Ledger LedgerEngine where
  openAt options ledger := (.ok { options }, { ledger with opens := ledger.opens + 1 })
  close _ ledger := (.ok (), { ledger with closes := ledger.closes + 1 })
  abandoned _ ledger := ledger

def twoWorkers : List Turn :=
  let first : Settings := { path := some "first" }
  let second : Settings := { path := some "second", fieldCount := 1 }
  [.acquire 1 first, .acquire 2 second, .release 1, .release 2, .acquire 2 second, .acquire 1 first]

theorem run_opens_and_closes_once_ledger :
    ∃ workers, ({ host := { world := {} } } : Workers Ledger LedgerEngine).run 0 twoWorkers =
        .ok workers ∧
      Serving 0 workers ∧ workers.holding.length = 2 ∧ workers.host.references 0 = 2 ∧
      workers.host.world.opens = workers.host.world.closes + 1 := by
  have reliable : Reliable LedgerEngine :=
    ⟨fun options world => ⟨_, _, rfl⟩, fun engine world => ⟨_, rfl⟩⟩
  have counted : Counted LedgerEngine Ledger.opens Ledger.closes :=
    ⟨fun _ _ => ⟨rfl, rfl⟩, fun _ _ => ⟨rfl, rfl⟩⟩
  have valid : ∀ turn ∈ twoWorkers, turn.Valid := by
    intro turn member
    simp only [twoWorkers, List.mem_cons, List.not_mem_nil, or_false] at member
    rcases member with rfl | rfl | rfl | rfl | rfl | rfl <;>
      first | exact trivial | exact ⟨_, rfl⟩
  obtain ⟨workers, finished, serving, -, balanced⟩ :=
    run_opens_and_closes_once reliable ({ world := {} } : Host Ledger LedgerEngine) 0 rfl rfl
      twoWorkers valid
  have holding : workers.holding.length = 2 := by
    have result : (({ host := { world := {} } } : Workers Ledger LedgerEngine).run 0
        twoWorkers).map (·.holding.length) = .ok 2 := rfl
    rw [finished] at result
    exact Except.ok.inj result
  refine ⟨workers, finished, serving, holding, by rw [serving.references, holding], ?_⟩
  have balance := balanced Ledger.opens Ledger.closes counted
  have busy : workers.holding ≠ [] := by
    intro idle
    rw [idle] at holding
    cases holding
  rw [openings, if_neg busy] at balance
  change workers.host.world.opens + 0 = 0 + workers.host.world.closes + 1 at balance
  omega

end Workers

end RowStore
