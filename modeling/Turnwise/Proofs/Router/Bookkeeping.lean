import Mathlib.Data.Set.Card
import Turnwise.Proofs.Router.Selection

/-!
# The books of a router

A router counts the same things in several places: the sessions of each worker, the pins, the
sessions that were created and that were ended. The numbers agree after every operation, whatever
the workers answer (`Router.Booked`).

An operation that fails leaves the books alone (`Router.Fails`). Two things are noted about it: a
create that times out uses up its id, and a worker that could not be reached is not healthy any
more.
-/

namespace Turnwise

/-- The operation is a create, and what went wrong is that it timed out. -/
def Operation.TimesOut : Operation → Error → Prop
  | create _, .timeout _ => True
  | _, _ => False

/-- An operation on a session that is there already is no create. -/
theorem Operation.not_timesOut {r : Router} {operation : Operation} {id : SessionId}
    {command : Command} (h : operation.command? r = some (id, command)) (e : Error) :
    ¬ operation.TimesOut e := by
  cases operation <;> cases h <;> exact not_false

namespace Router

variable {r r' : Router} {id : SessionId} {index : Nat} {operation : Operation} {sent : Sent}
  {answer : Except Error Reply} {e : Error}

/-! ### Workers that fail -/

theorem getElem?_noteFailure (workers : List WorkerInfo) (index other : Nat) (e : Error) :
    (noteFailure workers index e)[other]? = workers[other]?.map fun info =>
      if e.isUnreachable ∧ index = other then { info with healthy := false } else info := by
  unfold noteFailure
  cases e.isUnreachable with
  | true => simp [List.getElem?_modify]
  | false => simp

theorem map_sessions_noteFailure (workers : List WorkerInfo) (index : Nat) (e : Error) :
    (noteFailure workers index e).map WorkerInfo.sessions = workers.map WorkerInfo.sessions := by
  refine List.ext_getElem? fun other => ?_
  rw [List.getElem?_map, getElem?_noteFailure, List.getElem?_map, Option.map_map]
  refine congrArg (Option.map · workers[other]?) (funext fun info => ?_)
  dsimp only [Function.comp_apply]
  split_ifs <;> rfl

/-! ### Agreement of the numbers -/

/-- The numbers that a router keeps agree: those of the sessions of each worker with the pins, and
the sessions created and ended with all the pins there are. The cursor points to a worker. -/
structure Booked (r : Router) : Prop extends Counted r where
  balance : r.tally.sessionsCreated = r.tally.sessionsEnded + r.pins.length
  cursor : r.cursor < r.workers.length

namespace Booked

theorem ofWorkers {workers : List WorkerId} (hworkers : 0 < workers.length) (config : Config) :
    (Router.ofWorkers workers config).Booked where
  toCounted := .ofWorkers workers config
  balance := rfl
  cursor := by
    show 0 < (workers.map _).length
    rwa [List.length_map]

theorem selectWorker (h : r.Booked) {choice : Except Error Nat}
    (hselect : r.selectWorker = (choice, r')) : r'.Booked := by
  obtain ⟨cursor, hcursor, rfl⟩ := exists_cursor_of_selectWorker hselect
  exact ⟨⟨h.nodup, h.minted, h.sessions⟩, h.balance, hcursor h.cursor⟩

theorem markFailed (h : r.Booked) (index : Nat) (e : Error) : (r.markFailed index e).Booked := by
  obtain ⟨failures, heq⟩ := r.exists_markFailed_eq index e
  have hsessions := map_sessions_noteFailure r.workers index e
  have hlength := congrArg List.length hsessions
  rw [List.length_map, List.length_map] at hlength
  rw [heq]
  refine ⟨⟨h.nodup, h.minted, fun other info hinfo => ?_⟩, h.balance, hlength.symm ▸ h.cursor⟩
  -- The worker had as many sessions before.
  have hother := congrArg (·[other]?) hsessions
  simp only [List.getElem?_map] at hother
  rw [show (noteFailure r.workers index e)[other]? = some info from hinfo, Option.map_some, eq_comm,
    Option.map_eq_some_iff] at hother
  obtain ⟨info', hinfo', heq'⟩ := hother
  exact heq' ▸ h.sessions other info' hinfo'

theorem countUnknown (h : r.Booked) : r.countUnknown.Booked :=
  ⟨⟨h.nodup, h.minted, h.sessions⟩, h.balance, h.cursor⟩

theorem abandon (h : r.Booked) : r.abandon.Booked :=
  ⟨⟨h.nodup, fun id hmem => Nat.lt_succ_of_lt (h.minted id hmem), h.sessions⟩, h.balance, h.cursor⟩

theorem pin (h : r.Booked) (index : Nat) : (r.pin index).Booked where
  toCounted := h.toCounted.pin index
  balance := congrArg (· + 1) h.balance
  cursor := by
    show r.cursor < (r.workers.modify index _).length
    rw [List.length_modify]
    exact h.cursor

theorem unpin (h : r.Booked) (hpin : r.pinned? id = some index) : (r.unpin id index).Booked where
  toCounted := h.toCounted.unpin hpin
  balance := by
    have hmem : id ∈ r.pins.map Prod.fst := by
      obtain ⟨entry, hentry, rfl⟩ := List.mem_map.mp (h.mem_pinnedTo.mpr hpin)
      exact List.mem_map_of_mem (List.mem_of_mem_filter hentry)
    -- One pin is removed, since the session has no other.
    have hremoved : ((r.pins.filter fun entry => entry.1 != id).map Prod.fst).length + 1 =
        (r.pins.map Prod.fst).length := by
      have hfilter : (r.pins.filter fun entry => entry.1 != id).map Prod.fst =
          (r.pins.map Prod.fst).erase id := by
        rw [h.nodup.erase_eq_filter, List.filter_map]
        rfl
      rw [hfilter, List.length_erase_of_mem hmem]
      have hpos := List.length_pos_of_mem hmem
      omega
    rw [List.length_map, List.length_map] at hremoved
    show r.tally.sessionsCreated = r.tally.sessionsEnded + 1 + _
    rw [h.balance, ← hremoved]
    show _ + ((r.unpin id index).pins.length + 1) = _
    omega
  cursor := by
    show r.cursor < (r.workers.modify index _).length
    rw [List.length_modify]
    exact h.cursor

/-- No operation makes the numbers disagree. -/
theorem step (h : r.Booked) (hstep : Step r operation sent answer r') : r'.Booked := by
  cases hstep with
  | unplaced hselect => exact h.selectWorker hselect
  | created hselect => exact (h.selectWorker hselect).pin _
  | retired hselect => exact ((h.selectWorker hselect).markFailed ..).abandon
  | rejected hselect => exact (h.selectWorker hselect).markFailed ..
  | unknown => exact h.countUnknown
  | failed | unsurveyed => exact h.markFailed ..
  | ended hpin => exact h.unpin hpin
  | served | endedAgain | surveyed => exact h

theorem trace {turns : List (Operation × Except Error Reply)} (h : r.Booked)
    (htrace : Trace r turns sent r') : r'.Booked := by
  induction htrace with
  | nil => exact h
  | cons hstep _ ih => exact ih (h.step hstep)

/-! ### Numbers of pinned sessions -/

theorem ncard_pinned (h : r.Booked) (index : Nat) :
    {id | r.pinned? id = some index}.ncard = (r.pinnedTo index).length := by
  have hset : {id | r.pinned? id = some index} = ↑(r.pinnedTo index).toFinset := by
    ext id
    rw [Finset.mem_coe, List.mem_toFinset]
    exact h.mem_pinnedTo.symm
  rw [hset, Set.ncard_coe_finset, List.toFinset_card_of_nodup (h.nodup_pinnedTo index)]

theorem ncard_all_pinned (h : r.Booked) : {id | r.pinned? id ≠ none}.ncard = r.pins.length := by
  have hset : {id | r.pinned? id ≠ none} = ↑(r.pins.map Prod.fst).toFinset := by
    ext id
    rw [Finset.mem_coe, List.mem_toFinset, Set.mem_ofPred_eq, pinned?, Ne, List.lookup_eq_none_iff]
    simp
  rw [hset, Set.ncard_coe_finset, List.toFinset_card_of_nodup h.nodup, List.length_map]

end Booked

/-! ### Operations that fail -/

/-- What an operation that fails with a cause does to the books. The worker at fault, if any worker
was asked, is the one that was sent the last command. -/
structure Fails (r : Router) (operation : Operation) (sent : Sent) (e : Error) (r' : Router) :
    Prop where
  pins : r'.pins = r.pins
  sessions : r'.workers.map WorkerInfo.sessions = r.workers.map WorkerInfo.sessions
  healthy : ∀ (index : Nat) (info info' : WorkerInfo), r.workers[index]? = some info →
    r'.workers[index]? = some info' →
      (info'.healthy = true ↔ info.healthy = true ∧
        ¬ (e.isUnreachable = true ∧ sent.getLast?.map Prod.fst = some index))
  kept : ¬ operation.TimesOut e → r'.nextSession = r.nextSession ∧ r'.abandoned = r.abandoned
  /-- The id is used up. -/
  retired : operation.TimesOut e →
    r'.nextSession = r.nextSession + 1 ∧ r'.abandoned = ⟨r.nextSession⟩ :: r.abandoned

namespace Fails

/-- No worker was asked. -/
theorem of_unasked (hsame : SameSessions r r') (hworkers : r'.workers = r.workers)
    (hlate : ¬ operation.TimesOut e) : Fails r operation [] e r' where
  pins := hsame.pins
  sessions := congrArg (List.map WorkerInfo.sessions) hworkers
  healthy index info info' hinfo hinfo' := by
    rw [hworkers, hinfo] at hinfo'
    rw [Option.some.inj hinfo']
    simp
  kept _ := ⟨hsame.nextSession, hsame.abandoned⟩
  retired h := absurd h hlate

/-- The flags after the worker that was sent the last command has failed. -/
theorem healthy_iff {workers : List WorkerInfo} (hlast : sent.getLast?.map Prod.fst = some index)
    (other : Nat) (info info' : WorkerInfo) (hinfo : workers[other]? = some info)
    (hinfo' : (noteFailure workers index e)[other]? = some info') :
    info'.healthy = true ↔ info.healthy = true ∧
      ¬ (e.isUnreachable = true ∧ sent.getLast?.map Prod.fst = some other) := by
  rw [getElem?_noteFailure, hinfo, Option.map_some] at hinfo'
  rw [← Option.some.inj hinfo', hlast, Option.some_inj]
  split_ifs with h <;> simp [h]

/-- A worker was asked last, and failed. -/
theorem of_asked {r₀ : Router} (hsame : SameTables r r₀)
    (hlast : sent.getLast?.map Prod.fst = some index) (hlate : ¬ operation.TimesOut e) :
    Fails r operation sent e (r₀.markFailed index e) := by
  obtain ⟨cursor, tally, rfl⟩ := hsame
  obtain ⟨failures, heq⟩ := exists_markFailed_eq { r with cursor, tally } index e
  rw [heq]
  exact ⟨rfl, map_sessions_noteFailure .., healthy_iff hlast, fun _ => ⟨rfl, rfl⟩,
    fun h => absurd h hlate⟩

/-- A worker was asked to create a session and did not answer in time. -/
theorem of_retired {r₀ : Router} (hsame : SameTables r r₀)
    (hlast : sent.getLast?.map Prod.fst = some index) (hlate : operation.TimesOut e) :
    Fails r operation sent e (r₀.markFailed index e).abandon := by
  obtain ⟨cursor, tally, rfl⟩ := hsame
  obtain ⟨failures, heq⟩ := exists_markFailed_eq { r with cursor, tally } index e
  rw [heq]
  exact ⟨rfl, map_sessions_noteFailure .., healthy_iff hlast, fun h => absurd hlate h,
    fun _ => ⟨rfl, rfl⟩⟩

end Fails

/-- **An operation that fails leaves the books alone.** -/
theorem Step.fails (h : Step r operation sent (.error e) r') : Fails r operation sent e r' := by
  cases h with
  | unplaced hselect =>
    have hlate : ∀ sampling, ¬ (Operation.create sampling).TimesOut e := by
      obtain ⟨detail, rfl⟩ := selectWorker_error hselect
      exact fun _ => id
    exact .of_unasked (sameSessions_selectWorker hselect)
      (sameTables_selectWorker hselect).workers (hlate _)
  | retired hselect => exact .of_retired (sameTables_selectWorker hselect) rfl trivial
  | rejected hselect he =>
    refine .of_asked (sameTables_selectWorker hselect) rfl ?_
    cases e with
    | timeout detail => exact absurd rfl (he detail)
    | _ => exact id
  | unknown hop =>
    exact .of_unasked (sameSessions_countUnknown r) rfl (Operation.not_timesOut hop _)
  | failed hop => exact .of_asked (.refl r) rfl (Operation.not_timesOut hop e)
  | unsurveyed hround =>
    refine .of_asked (.refl r) ?_ id
    rw [List.map_append, List.map_singleton, List.getLast?_concat]
    rfl

end Router

namespace Front

variable {σ : Type}

/-- **The books of a router are in order after any operations, however the workers answer.**

* The number of sessions of each worker is that of the ids pinned to it. So it is not zero when a
  pin is about to be removed.
* The sessions created are those ended and those pinned.
* Every id that is pinned is below the next one and was not abandoned.
* The cursor points to a worker.
* An operation that fails leaves the pins, the numbers of sessions and the ids alone, except that a
  create that times out uses up its id. The worker that was asked last is found unhealthy if it
  could not be reached, and no other flag changes. -/
theorem booked_run (c : Clients σ) (pool : σ) (workers : Nat) (hworkers : 0 < workers)
    (config : Config) (operations : List Operation) :
    let start : Front σ :=
      { router := .ofWorkers ((List.range workers).map WorkerId.mk) config, pool }
    let f := start.after c operations
    f.router.workers.length = workers ∧
    (∀ index info, f.router.workers[index]? = some info →
      info.sessions = {id | f.router.pinned? id = some index}.ncard) ∧
    (∀ id index, f.router.pinned? id = some index →
      ∃ info, f.router.workers[index]? = some info ∧ 0 < info.sessions) ∧
    f.router.tally.sessionsCreated =
      f.router.tally.sessionsEnded + {id | f.router.pinned? id ≠ none}.ncard ∧
    (∀ id, f.router.pinned? id ≠ none →
      id.number < f.router.nextSession ∧ id ∉ f.router.abandoned) ∧
    f.router.cursor < workers ∧
    (∀ operation e, (f.perform c operation).1 = .error e →
      f.router.Fails operation (f.commandsSent c [operation]) e
        (f.perform c operation).2.router) := by
  intro start f
  have htrace := start.trace_front c operations
  have hlength : (start.router.workers).length = workers := by
    show (((List.range workers).map WorkerId.mk).map _).length = workers
    rw [List.length_map, List.length_map, List.length_range]
  -- Three invariants of a run give it all: the numbers agree, the ids ascend, the pins name
  -- workers.
  have hbooked : f.router.Booked := by
    refine Router.Booked.trace (.ofWorkers ?_ config) htrace
    rwa [List.length_map, List.length_range]
  have hissues := (Router.Issues.ofWorkers ((List.range workers).map WorkerId.mk) config).trace
    htrace
  have hrange : f.router.PinsInRange := by
    refine htrace.pinsInRange fun id index hpin => ?_
    cases hpin
  have hlength' : f.router.workers.length = workers := htrace.length_workers.trans hlength
  refine ⟨hlength', fun index info hinfo => ?_, fun id index hpin => ?_, ?_, fun id hpin => ?_,
    hlength' ▸ hbooked.cursor, fun operation e he => ?_⟩
  · rw [hbooked.ncard_pinned]
    exact hbooked.sessions index info hinfo
  · have hinfo := List.getElem?_eq_getElem (hrange id index hpin)
    refine ⟨_, hinfo, ?_⟩
    rw [hbooked.sessions index _ hinfo]
    exact List.length_pos_of_mem (hbooked.mem_pinnedTo.mpr hpin)
  · rw [hbooked.ncard_all_pinned]
    exact hbooked.balance
  · have hissued := Router.wasIssued_iff.mp ((hissues.mem_iff id).mp (hissues.pinned id hpin))
    exact hissued.2
  · have hstep := f.step_perform c operation
    rw [he] at hstep
    exact hstep.fails

/-- One worker, which creates a session and cannot be reached afterwards. -/
theorem booked_run_unreachable :
    let reach (_ : Nat) (_ : Command) (reachable : Bool) : Except Error Ack × Bool :=
      if reachable then (.ok (.created ⟨0⟩), false) else (.error (.workerUnavailable "gone"), false)
    let c : Clients Bool := .over reach
      (fun index command reachable => Prod.map (Except.map some) id (reach index command reachable))
      (fun index command reachable => Prod.map (Except.map some) id (reach index command reachable))
    let start : Front Bool :=
      { router := .ofWorkers ((List.range 1).map WorkerId.mk) {}, pool := true }
    let f := start.after c [.create {}]
    0 < 1 ∧ {id | f.router.pinned? id = some 0}.ncard = 1 ∧
      (f.perform c (.append ⟨1⟩ "")).1 = .error (.workerUnavailable "gone") ∧
      f.router.Fails (.append ⟨1⟩ "") (f.commandsSent c [.append ⟨1⟩ ""])
        (.workerUnavailable "gone") (f.perform c (.append ⟨1⟩ "")).2.router ∧
      (f.perform c (.append ⟨1⟩ "")).2.router.workers =
        [{ worker := ⟨0⟩, sessions := 1, healthy := false }] := by
  intro reach c start f
  obtain ⟨-, hsessions, -, -, -, -, hfails⟩ :=
    booked_run c true 1 Nat.one_pos {} [.create {}]
  have hworkers : f.router.workers[0]? = some { worker := ⟨0⟩, sessions := 1 } := by decide +kernel
  have hfailed : (f.perform c (.append ⟨1⟩ "")).1 = .error (.workerUnavailable "gone") := by
    decide +kernel
  exact ⟨Nat.one_pos, (hsessions 0 _ hworkers).symm, hfailed, hfails _ _ hfailed,
    by decide +kernel⟩

end Front

end Turnwise
