import Turnwise.Engine
import Turnwise.Proofs.Router.Fleet
import Turnwise.Proofs.Router.Selection
import Turnwise.Proofs.Worker.Refusal

/-!
# Router and workers agree

The router keeps a table of pins and a number of sessions for each worker; every worker keeps an
index and an arena of its own. As long as every request is answered in time, the two sides agree
(`Front.Agrees`): a worker has just the sessions that are pinned to it, and as many as the router
counts there.

So the router never asks a worker for a session that it does not have, or to create one that it has,
and what an operation can fail for is little (`Agrees.perform`). The router knows which workers have
room, too: where it picks the worker with the fewest sessions, a create fails for want of room only
if all workers are full (`Agrees.createSession`).
-/

namespace Turnwise

/-- The router has not waited in vain, and has found no worker unreachable. -/
def Acknowledged {α : Type} (answer : Except Error α) : Prop :=
  ∀ detail, answer ≠ .error (.timeout detail) ∧ answer ≠ .error (.workerUnavailable detail)

theorem acknowledged_map {α β : Type} {answer : Except Error α} {f : α → β} :
    Acknowledged (answer.map f) ↔ Acknowledged answer := by
  cases answer <;> simp [Acknowledged, Except.map]

theorem acknowledged_ok {α : Type} (a : α) : Acknowledged (.ok a) := by
  simp [Acknowledged]

theorem acknowledged_error {α β : Type} {e : Error}
    (h : Acknowledged (.error e : Except Error α)) : Acknowledged (.error e : Except Error β) := by
  simpa [Acknowledged] using h

theorem error_of_map {α β : Type} {answer : Except Error α} {f : α → β} {e : Error}
    (h : answer.map f = .error e) : answer = .error e := by
  cases answer with
  | error e' => exact congrArg Except.error (Except.error.inj h)
  | ok value => cases h

theorem created_of_map {answer : Except Error SessionId} {id : SessionId}
    (h : answer.map Reply.created = .ok (.created id)) : answer = .ok id := by
  cases answer with
  | error e => cases h
  | ok id' => rw [Reply.created.inj (Except.ok.inj h)]

/-! ### Answers of workers that were reached -/

namespace Worker

variable {b : Backend} {w : Worker b} {id : SessionId}

/-- A create for a new session fails for bad parameters, and then for want of room. -/
theorem Seated.createSession_of_new (hw : w.Seated) (hnew : ¬ w.Knows id)
    (sampling : Sampling) :
    (∃ e, sampling.validate = .error e ∧ w.createSession id sampling = .error e) ∨
      (w.sessions.free = [] ∧
        w.createSession id sampling = .error (.workerAtCapacity w.id w.sessions.capacity)) ∨
      ∃ slot w', w.sessions.free ≠ [] ∧ w.createSession id sampling = .ok (slot, w') := by
  rcases hw.createSession_eq id sampling with
    ⟨hlive, -⟩ | ⟨-, hinvalid⟩ | ⟨-, -, hfull, heq⟩ | ⟨-, -, hroom, slot, w', heq⟩
  · exact absurd (hw.live_iff.mp hlive) hnew
  · exact .inl hinvalid
  · exact .inr (.inl ⟨not_not.mp (mt hw.hasRoom_iff.mpr hfull), heq⟩)
  · exact .inr (.inr ⟨slot, w', hw.hasRoom_iff.mp hroom, heq⟩)

theorem Seated.appendInput_of_known (hw : w.Seated) (hknown : w.Knows id) {text : String}
    {e : Error} (h : w.appendInput id text = .error e) : b.tokenize text = .error e := by
  cases hw.appendInput_eq_error_iff.mp h with
  | unknownInput hnew => exact absurd (hw.live_iff.mpr hknown) hnew
  | untokenized _ htokens => exact htokens

theorem Seated.snapshot_of_known (hw : w.Seated) (hknown : w.Knows id) (e : Error) :
    w.snapshot id ≠ .error e := by
  intro h
  cases hw.snapshot_eq_error_iff.mp h with
  | unknownView hnew => exact hnew (hw.live_iff.mpr hknown)

end Worker

namespace Host.Serves

variable {b : Backend} {h : Host b} {config : WorkerConfig} {capacity : Nat}
  {live : SessionId → Prop}

/-- Every place of the arena holds a live session or is free. -/
theorem length_add_free (hh : h.Serves config capacity live) {ids : List SessionId}
    (hnodup : ids.Nodup) (hids : ∀ id, id ∈ ids ↔ live id) :
    ids.length + h.worker.sessions.free.length = capacity := by
  have hseated := hh.steady.seated
  have hperm : ids.Perm h.worker.liveIds := by
    refine (List.perm_ext_iff_of_nodup hnodup hseated.nodup_liveIds).mpr fun id => ?_
    rw [hids, hseated.mem_liveIds, hh.knows]
  rw [hperm.length_eq, hseated.length_liveIds_add_free, hh.places]

end Host.Serves

/-! ### Engines -/

namespace Engine

variable {b : Backend} {config : Config}

/-- Every host that is started gets a context of the same kind. -/
theorem startHosts_eq {crashesOn : Batch → Bool} {callMs : Nat} {context : b.Context}
    (hcontext : b.newContext config.worker.maxSessions = .ok context) (indices : List Nat) :
    startHosts b config crashesOn callMs indices = .ok (indices.map fun index =>
      { worker := .start ⟨index⟩ context config.worker
        ackTimeoutMs := config.engine.ackTimeoutMs
        crashesOn
        callMs }) := by
  induction indices with
  | nil => rfl
  | cons index rest ih =>
    rw [startHosts, hcontext, ih]
    rfl

/-- **An engine that has started** is a router in front of a fleet that has started, on contexts
that are all alike. -/
theorem fleet_of_start {engine : Engine b} (hstart : start b config = .ok engine) :
    ∃ context, b.newContext config.worker.maxSessions = .ok context ∧
      let f := Front.fleet (List.replicate config.engine.numWorkers context) config
      engine.front.router = f.router ∧ engine.front.pool.hosts = f.pool.hosts := by
  -- An engine starts with a valid configuration only, and a valid one asks for a worker.
  have hvalid : config.validate = .ok () := by
    unfold start at hstart
    cases hvalid : config.validate with
    | error e =>
      rw [hvalid] at hstart
      cases hstart
    | ok => rfl
  have hworkers : 1 ≤ config.engine.numWorkers := by
    by_contra hnone
    unfold Config.validate requireAtLeast at hvalid
    rw [if_pos (Nat.lt_of_not_le hnone)] at hvalid
    cases hvalid
  unfold start at hstart
  rw [hvalid] at hstart
  cases hcontext : b.newContext config.worker.maxSessions with
  | error e =>
    -- The first worker would have been without a context.
    obtain ⟨count, hcount⟩ := Nat.exists_eq_add_of_le' hworkers
    rw [hcount, List.range_succ_eq_map, startHosts, hcontext] at hstart
    cases hstart
  | ok context =>
    rw [startHosts_eq hcontext] at hstart
    obtain rfl := Except.ok.inj hstart
    have hhosts : ((List.range config.engine.numWorkers).map fun index =>
        ({ worker := .start ⟨index⟩ context config.worker
           ackTimeoutMs := config.engine.ackTimeoutMs } : Host b)) =
          (Front.fleet (List.replicate config.engine.numWorkers context) config).pool.hosts := by
      -- The hosts are compared one by one.
      refine List.ext_getElem ?_ fun index _ _ => ?_
      · exact (List.length_map _).trans (List.length_range.trans
          (List.length_replicate.symm.trans List.length_mapIdx.symm))
      · simp [Front.fleet]
    refine ⟨context, rfl, ?_, hhosts⟩
    show Router.ofWorkers (List.map Host.id _) config = Router.ofWorkers (List.map Host.id _) config
    rw [hhosts]
    rfl

end Engine

/-! ### Requests -/

namespace Fleet

variable {b : Backend}

/-- A request with the kind of answer that it is for. -/
def request {α : Type} (index : Nat) (command : Command) (pick : Ack → Option α)
    (fleet : Fleet b) : Except Error α × Fleet b :=
  ((fleet.ask index command).1.bind (Ack.pick index pick), (fleet.ask index command).2)

end Fleet

namespace Front

open Router

variable {b : Backend} {f : Front (Fleet b)} {config : Config} {capacity : Nat}

/-- Router and workers agree: each worker has the sessions that are pinned to it, and the router
counts them right. -/
structure Agrees (config : Config) (capacity : Nat) (f : Front (Fleet b)) : Prop where
  serves : f.pool.Serves config.worker capacity fun index id => f.router.pinned? id = some index
  hosts : f.pool.hosts.length = f.router.workers.length
  range : f.router.PinsInRange
  counted : f.router.Counted
  healthy : f.router.AllHealthy
  selection : f.router.selection = config.engine.selection

section Create

variable {σ : Type} {c : Clients σ} {f : Front σ} {f' : Front σ} {sampling : Sampling}
  {index : Nat} {r' : Router}

theorem createSession_of_ok (hselect : f.router.selectWorker = (.ok index, r')) {slot : Slot}
    (hcall : { f with router := r' }.call index
      (c.createSession index ⟨r'.nextSession⟩ sampling) = (.ok slot, f')) :
    f.createSession c sampling =
      (.ok ⟨r'.nextSession⟩, { f' with router := f'.router.pin index }) := by
  unfold createSession
  rw [hselect]
  dsimp only
  rw [hcall]

theorem createSession_of_error (hselect : f.router.selectWorker = (.ok index, r')) {e : Error}
    (hcall : { f with router := r' }.call index
      (c.createSession index ⟨r'.nextSession⟩ sampling) = (.error e, f'))
    (hanswer : Acknowledged (f.createSession c sampling).1) :
    f.createSession c sampling = (.error e, f') ∧
      Acknowledged (.error e : Except Error Slot) := by
  unfold createSession at hanswer ⊢
  rw [hselect] at hanswer ⊢
  dsimp only at hanswer ⊢
  rw [hcall] at hanswer ⊢
  cases e with
  | timeout detail => exact absurd rfl (hanswer detail).1
  | _ => exact ⟨rfl, acknowledged_error hanswer⟩

/-- The router passes on what the worker that it has picked answers. -/
theorem acknowledged_call (hselect : f.router.selectWorker = (.ok index, r'))
    (hanswer : Acknowledged (f.createSession c sampling).1) :
    Acknowledged ({ f with router := r' }.call index
      (c.createSession index ⟨r'.nextSession⟩ sampling)).1 := by
  generalize hcall : { f with router := r' }.call index
    (c.createSession index ⟨r'.nextSession⟩ sampling) = outcome
  obtain ⟨e | slot, f'⟩ := outcome
  · exact (createSession_of_error hselect hcall hanswer).2
  · exact acknowledged_ok _

end Create

namespace Agrees

/-- The tables of pins and the workers have not changed. -/
theorem of_same (hf : f.Agrees config capacity) {r' : Router} {fleet' : Fleet b}
    (hsame : SameTables f.router r')
    (hserves : fleet'.Serves config.worker capacity fun index id =>
      f.router.pinned? id = some index)
    (hlength : fleet'.hosts.length = f.pool.hosts.length) :
    Agrees config capacity { router := r', pool := fleet' } := by
  have hcounted := hf.counted.of_same hsame
  obtain ⟨cursor, tally, rfl⟩ := hsame
  exact ⟨hserves, hlength.trans hf.hosts, hf.range, hcounted, hf.healthy, hf.selection⟩

theorem of_router (hf : f.Agrees config capacity) {r' : Router} (hsame : SameTables f.router r') :
    Agrees config capacity { f with router := r' } :=
  hf.of_same hsame hf.serves rfl

/-- What is live at each worker after one of them has answered. -/
def settled (r : Router) (index : Nat) (command : Command) (ack : Ack) : Nat → SessionId → Prop :=
  Function.update (fun index id => r.pinned? id = some index) index
    (command.settle (fun id => r.pinned? id = some index) ack)

/-- **What a request can come to** that is acknowledged: there is no room in the queue, or the
worker answers. -/
theorem call (hf : f.Agrees config capacity) {index : Nat} (hindex : index < f.pool.hosts.length)
    {command : Command} (hfits : command.Fits fun id => f.router.pinned? id = some index)
    (hcommand : command ≠ .shutdown) {α : Type} {pick : Ack → Option α}
    (hanswer : Acknowledged (f.call index (Fleet.request index command pick)).1) :
    (∃ detail r', SameTables f.router r' ∧ f.call index (Fleet.request index command pick) =
        (.error (.queueFull detail), { f with router := r' })) ∨
      ∃ (host : Host b) (r' : Router) (fleet' : Fleet b),
        host.Serves config.worker capacity (fun id => f.router.pinned? id = some index) ∧
        SameTables f.router r' ∧ fleet'.hosts.length = f.pool.hosts.length ∧
        fleet'.Serves config.worker capacity
          (settled f.router index command (host.apply command).1) ∧
        f.call index (Fleet.request index command pick) =
          ((Host.receive (host.apply command).1).bind (Ack.pick index pick),
            { router := r', pool := fleet' }) ∧
        ∀ value, (Host.receive (host.apply command).1).bind (Ack.pick index pick) = .ok value →
          r' = f.router := by
  have hask := hf.serves.ask hindex hfits hcommand
  have hlength := f.pool.length_ask index command
  unfold Front.call Fleet.request at hanswer ⊢
  rcases hask with ⟨detail, hask⟩ | ⟨detail, hask⟩ | ⟨host, hhost, hask, hafter⟩
  · rw [hask] at hanswer
    exact absurd rfl (hanswer detail).1
  · rw [hask] at hanswer ⊢
    exact .inl ⟨detail, _, sameTables_markFailed f.router index fun _ => Error.noConfusion, rfl⟩
  · rw [hask] at hanswer ⊢
    refine .inr ⟨host, ?_⟩
    cases hresult : (Host.receive (host.apply command).1).bind (Ack.pick index pick) with
    | error e =>
      rw [hresult] at hanswer
      have hreached : ∀ detail, e ≠ .workerUnavailable detail := fun detail he =>
        (hanswer detail).2 (congrArg Except.error he)
      exact ⟨_, _, hhost, sameTables_markFailed f.router index hreached, hlength, hafter, rfl,
        nofun⟩
    | ok value => exact ⟨_, _, hhost, .refl f.router, hlength, hafter, rfl, fun _ _ => rfl⟩

/-- A command that neither creates nor ends a session leaves everything as it is. -/
theorem settled_of_same {r : Router} {index : Nat} {command : Command} {ack : Ack}
    (hsettle : ∀ live, command.settle live ack = live) :
    settled r index command ack = fun index id => r.pinned? id = some index := by
  rw [settled, hsettle, Function.update_eq_self]

/-- A request that neither creates nor ends a session, and the causes for which it can fail. -/
theorem call_same (hf : f.Agrees config capacity) {index : Nat}
    (hindex : index < f.pool.hosts.length) {command : Command}
    (hfits : command.Fits fun id => f.router.pinned? id = some index)
    (hsettle : ∀ live ack, command.settle live ack = live) (hcommand : command ≠ .shutdown)
    {α : Type} (pick : Ack → Option α)
    (hanswer : Acknowledged (f.call index (Fleet.request index command pick)).1) :
    (f.call index (Fleet.request index command pick)).2.Agrees config capacity ∧
      (f.call index (Fleet.request index command pick)).2.pool.hosts.length =
        f.pool.hosts.length ∧
      ∀ e, (f.call index (Fleet.request index command pick)).1 = .error e →
        (∃ detail, e = .queueFull detail) ∨
          ∃ host : Host b, host.Serves config.worker capacity
              (fun id => f.router.pinned? id = some index) ∧
            (Host.receive (host.worker.handle command).1).bind (Ack.pick index pick) =
              .error e := by
  rcases hf.call hindex hfits hcommand hanswer with
    ⟨detail, r', hsame, heq⟩ | ⟨host, r', fleet', hhost, hsame, hlength, hafter, heq, -⟩
  · rw [heq]
    exact ⟨hf.of_router hsame, rfl, fun e he => .inl ⟨detail, (Except.error.inj he).symm⟩⟩
  · rw [heq]
    rw [settled_of_same fun live => hsettle live _] at hafter
    refine ⟨hf.of_same hsame hafter hlength, hlength, fun e he => .inr ⟨host, hhost, ?_⟩⟩
    rwa [Host.apply_fst] at he

/-- A request that is passed on to the worker that has the session. -/
theorem route (hf : f.Agrees config capacity) (id : SessionId) (command : Command)
    (hfits : ∀ live : SessionId → Prop, live id → command.Fits live)
    (hsettle : ∀ live ack, command.settle live ack = live) (hcommand : command ≠ .shutdown)
    {α : Type} {pick : Ack → Option α}
    (hanswer : Acknowledged (f.route id fun index => Fleet.request index command pick).1) :
    (f.route id fun index => Fleet.request index command pick).2.Agrees config capacity ∧
      ∀ index e, f.router.pinned? id = some index →
        (f.route id fun index => Fleet.request index command pick).1 = .error e →
          (∃ detail, e = .queueFull detail) ∨
            ∃ host : Host b, host.worker.Seated ∧ host.worker.Knows id ∧
              (Host.receive (host.worker.handle command).1).bind (Ack.pick index pick) =
                .error e := by
  unfold Front.route at hanswer ⊢
  cases hpin : f.router.pinned? id with
  | none => exact ⟨hf.of_router (sameTables_countUnknown f.router), nofun⟩
  | some index =>
    rw [hpin] at hanswer
    have hindex : index < f.pool.hosts.length := hf.hosts ▸ hf.range id index hpin
    obtain ⟨hafter, -, hcauses⟩ := hf.call_same hindex (hfits _ hpin) hsettle hcommand pick hanswer
    refine ⟨hafter, fun index' e hpin' he => (hcauses e he).imp_right ?_⟩
    rintro ⟨host, hhost, herror⟩
    obtain rfl := Option.some.inj hpin'
    exact ⟨host, hhost.steady.seated, hhost.knows ▸ hpin, herror⟩

/-- Queueing input fails for want of room in the queue, or because the text has no tokens. -/
theorem appendInput (hf : f.Agrees config capacity) (id : SessionId) (text : String)
    (hanswer : Acknowledged (f.appendInput Fleet.clients id text).1) :
    (f.appendInput Fleet.clients id text).2.Agrees config capacity ∧
      ∀ index e, f.router.pinned? id = some index →
        (f.appendInput Fleet.clients id text).1 = .error e →
          (∃ detail, e = .queueFull detail) ∨ b.tokenize text = .error e := by
  obtain ⟨hafter, hcauses⟩ := hf.route id (.appendInput id text) (fun _ h => h)
    (fun _ _ => rfl) Command.noConfusion hanswer
  refine ⟨hafter, fun index e hpin he => (hcauses index e hpin he).imp_right ?_⟩
  rintro ⟨host, hseated, hknown, herror⟩
  unfold Worker.handle at herror
  dsimp only at herror
  cases happend : host.worker.appendInput id text with
  | error e' =>
    rw [happend] at herror
    exact Except.error.inj herror ▸ hseated.appendInput_of_known hknown happend
  | ok queued =>
    rw [happend] at herror
    cases herror

theorem cancelGenerate (hf : f.Agrees config capacity) (id : SessionId)
    (hanswer : Acknowledged (f.cancelGenerate Fleet.clients id).1) :
    (f.cancelGenerate Fleet.clients id).2.Agrees config capacity ∧
      ∀ index e, f.router.pinned? id = some index →
        (f.cancelGenerate Fleet.clients id).1 = .error e → ∃ detail, e = .queueFull detail := by
  unfold Front.cancelGenerate at hanswer ⊢
  obtain ⟨hafter, hcauses⟩ := hf.route id (.cancel id) (fun _ h => h) (fun _ _ => rfl)
    Command.noConfusion (acknowledged_map.mp hanswer)
  refine ⟨hafter, fun index e hpin he => ?_⟩
  rcases hcauses index e hpin (error_of_map he) with hfull | ⟨host, -, -, herror⟩
  · exact hfull
  · cases herror

theorem snapshot (hf : f.Agrees config capacity) (id : SessionId)
    (hanswer : Acknowledged (f.snapshot Fleet.clients id).1) :
    (f.snapshot Fleet.clients id).2.Agrees config capacity ∧
      ∀ index e, f.router.pinned? id = some index →
        (f.snapshot Fleet.clients id).1 = .error e → ∃ detail, e = .queueFull detail := by
  obtain ⟨hafter, hcauses⟩ := hf.route id (.snapshot id) (fun _ h => h) (fun _ _ => rfl)
    Command.noConfusion hanswer
  refine ⟨hafter, fun index e hpin he => ?_⟩
  rcases hcauses index e hpin he with hfull | ⟨host, hseated, hknown, herror⟩
  · exact hfull
  · unfold Worker.handle at herror
    dsimp only at herror
    cases hview : host.worker.snapshot id with
    | error e' => exact absurd hview (hseated.snapshot_of_known hknown e')
    | ok view =>
      rw [hview] at herror
      cases herror

theorem generate (hf : f.Agrees config capacity) (id : SessionId) (budget : Nat) :
    (f.generate Fleet.clients id budget).2.Agrees config capacity ∧
      ∀ index e, f.router.pinned? id = some index →
        (f.generate Fleet.clients id budget).1 = .error e → ∃ detail, e = .queueFull detail := by
  unfold Front.generate Front.route
  cases hpin : f.router.pinned? id with
  | none => exact ⟨hf.of_router (sameTables_countUnknown f.router), nofun⟩
  | some index =>
    have hindex : index < f.pool.hosts.length := hf.hosts ▸ hf.range id index hpin
    have hlength := f.pool.length_post index (.generate id budget f.router.streamBufferSize)
    have hpost := hf.serves.post hindex hpin budget f.router.streamBufferSize
    dsimp only
    unfold Front.call Fleet.clients Clients.over
    dsimp only
    rcases hpost with ⟨detail, hpost⟩ | ⟨hpost, hafter⟩
    · rw [hpost]
      refine ⟨hf.of_router (sameTables_markFailed f.router index fun _ => Error.noConfusion), ?_⟩
      exact fun _ e _ he => ⟨detail, (Except.error.inj he).symm⟩
    · rw [hpost]
      exact ⟨hf.of_same (.refl f.router) hafter hlength, nofun⟩

theorem settled_endSession {r : Router} {id : SessionId} {index : Nat}
    (hpin : r.pinned? id = some index) (ack : Ack) :
    settled r index (.endSession id) ack =
      fun index' id' => (r.unpin id index).pinned? id' = some index' := by
  funext index' id'
  rw [settled, Function.update_apply, pinned?_unpin]
  by_cases hid : id' = id
  · subst hid
    by_cases hindex : index' = index
    · rw [if_pos hindex, if_pos rfl]
      simp [Command.settle]
    · rw [if_neg hindex, if_pos rfl, hpin]
      simp [Ne.symm hindex]
  · rw [if_neg hid]
    by_cases hindex : index' = index
    · subst hindex
      rw [if_pos rfl]
      simp [Command.settle, hid]
    · rw [if_neg hindex]

/-- The worker has ended a session, and the router forgets it. -/
theorem of_unpin (hf : f.Agrees config capacity) {id : SessionId} {index : Nat}
    (hpin : f.router.pinned? id = some index) {fleet' : Fleet b} {ack : Ack}
    (hserves : fleet'.Serves config.worker capacity
      (settled f.router index (.endSession id) ack))
    (hlength : fleet'.hosts.length = f.pool.hosts.length) :
    Agrees config capacity { router := f.router.unpin id index, pool := fleet' } := by
  have hworkers : (f.router.unpin id index).workers.length = f.router.workers.length :=
    List.length_modify ..
  refine ⟨?_, ?_, ?_, hf.counted.unpin hpin, ?_, hf.selection⟩
  · rwa [settled_endSession hpin] at hserves
  · exact hlength.trans (hf.hosts.trans hworkers.symm)
  · intro id' index' hpin'
    rw [hworkers]
    rw [pinned?_unpin] at hpin'
    split_ifs at hpin'
    exact hf.range id' index' hpin'
  · exact hf.healthy.modifyWorker index fun _ => rfl

/-- The end of a session fails only for want of room in the queue. -/
theorem endSession (hf : f.Agrees config capacity) (id : SessionId)
    (hanswer : Acknowledged (f.endSession Fleet.clients id).1) :
    (f.endSession Fleet.clients id).2.Agrees config capacity ∧
      ∀ index e, f.router.pinned? id = some index →
        (f.endSession Fleet.clients id).1 = .error e → ∃ detail, e = .queueFull detail := by
  unfold Front.endSession at hanswer ⊢
  cases hpin : f.router.pinned? id with
  | none =>
    dsimp only
    split
    · exact ⟨hf, nofun⟩
    · exact ⟨hf.of_router (sameTables_countUnknown f.router), nofun⟩
  | some index =>
    rw [hpin] at hanswer
    dsimp only at hanswer ⊢
    have hindex : index < f.pool.hosts.length := hf.hosts ▸ hf.range id index hpin
    have hended : ∀ host : Host b, ∃ outcome, (host.apply (.endSession id)).1 = .ended outcome :=
      fun host => ⟨_, host.apply_fst (.endSession id)⟩
    -- The answer of a worker that ends a session is always that it has ended it, or had none.
    obtain ⟨pick, hpick, hrequest⟩ : ∃ pick : Ack → Option EndOutcome,
        (∀ outcome, pick (.ended outcome) = some outcome) ∧
          Fleet.clients.endSession index id = Fleet.request (b := b) index (.endSession id) pick :=
      ⟨_, fun _ => rfl, rfl⟩
    rw [hrequest] at hanswer ⊢
    -- What is acknowledged is the operation, and so the request that it makes.
    have hanswer' : Acknowledged (f.call index (Fleet.request index (.endSession id) pick)).1 := by
      rcases hcall : f.call index (Fleet.request index (.endSession id) pick) with ⟨e | outcome, f'⟩
      · rw [hcall] at hanswer
        exact acknowledged_error hanswer
      · exact acknowledged_ok _
    have hfits : (Command.endSession id).Fits fun id => f.router.pinned? id = some index := hpin
    -- There was no room in the queue, or the worker has answered.
    rcases hf.call hindex hfits Command.noConfusion hanswer' with
      ⟨detail, r', hsame, heq⟩ | ⟨host, r', fleet', -, hsame, hlength, hafter, heq, hkept⟩
    · rw [heq]
      exact ⟨hf.of_router hsame, fun _ e _ he => ⟨detail, (Except.error.inj he).symm⟩⟩
    · obtain ⟨outcome, hack⟩ := hended host
      have hresult : (Host.receive (host.apply (.endSession id)).1).bind (Ack.pick index pick) =
          .ok outcome := by
        rw [hack]
        show Ack.pick index pick (.ended outcome) = .ok outcome
        rw [Ack.pick, hpick]
      -- It has ended the session, and the router takes the pin out.
      obtain rfl := hkept outcome hresult
      rw [hresult] at heq
      rw [heq]
      exact ⟨hf.of_unpin hpin hafter hlength, nofun⟩

theorem settled_createSession {r : Router} {index : Nat}
    (hnew : ∀ index, r.pinned? ⟨r.nextSession⟩ ≠ some index) (sampling : Sampling)
    (slot : Slot) :
    settled r index (.createSession ⟨r.nextSession⟩ sampling) (.created slot) =
      fun index' id => (r.pin index).pinned? id = some index' := by
  funext index' id
  rw [settled, Function.update_apply, pinned?_pin]
  by_cases hid : id = ⟨r.nextSession⟩
  · subst hid
    rw [if_pos rfl]
    by_cases hindex : index' = index
    · rw [if_pos hindex, hindex]
      simp [Command.settle]
    · rw [if_neg hindex]
      simp [hnew index', Ne.symm hindex]
  · rw [if_neg hid]
    by_cases hindex : index' = index
    · subst hindex
      rw [if_pos rfl]
      simp [Command.settle, hid]
    · rw [if_neg hindex]

/-- The worker has created a session, and the router pins it there. -/
theorem of_pin (hf : f.Agrees config capacity) {index : Nat}
    (hindex : index < f.pool.hosts.length) {fleet' : Fleet b} {sampling : Sampling}
    {slot : Slot}
    (hserves : fleet'.Serves config.worker capacity
      (settled f.router index (.createSession ⟨f.router.nextSession⟩ sampling) (.created slot)))
    (hlength : fleet'.hosts.length = f.pool.hosts.length) :
    Agrees config capacity { router := f.router.pin index, pool := fleet' } := by
  have hworkers : (f.router.pin index).workers.length = f.router.workers.length :=
    List.length_modify ..
  refine ⟨?_, ?_, ?_, hf.counted.pin index, ?_, hf.selection⟩
  · rwa [settled_createSession hf.counted.not_pinned_next] at hserves
  · exact hlength.trans (hf.hosts.trans hworkers.symm)
  · intro id index' hpin
    rw [hworkers]
    rw [pinned?_pin] at hpin
    split_ifs at hpin
    · exact Option.some.inj hpin ▸ hf.hosts ▸ hindex
    · exact hf.range id index' hpin
  · exact hf.healthy.modifyWorker index fun _ => rfl

/-- The router knows how much room a worker has. -/
theorem sessions_add_free (hf : f.Agrees config capacity) {index : Nat} {info : WorkerInfo}
    (hinfo : f.router.workers[index]? = some info) {host : Host b}
    (hhost : host.Serves config.worker capacity fun id => f.router.pinned? id = some index) :
    info.sessions + host.worker.sessions.free.length = capacity := by
  rw [hf.counted.sessions index info hinfo]
  exact hhost.length_add_free (hf.counted.nodup_pinnedTo index) fun _ => hf.counted.mem_pinnedTo

/-- The sessions that are live on a worker are those that are pinned to it, and the router has
counted them. -/
theorem exists_host (hf : f.Agrees config capacity) {index : Nat} {info : WorkerInfo}
    (hinfo : f.router.workers[index]? = some info) :
    ∃ h : Host b, f.pool.hosts[index]? = some h ∧ h.worker.liveIds.Nodup ∧
      (∀ id, id ∈ h.worker.liveIds ↔ f.router.pinned? id = some index) ∧
      info.sessions = h.worker.liveIds.length := by
  have hindex : index < f.pool.hosts.length :=
    hf.hosts ▸ (List.getElem?_eq_some_iff.mp hinfo).1
  have hhost := List.getElem?_eq_getElem hindex
  have hserves := hf.serves.hosts index _ hhost
  have hseated := hserves.steady.seated
  have hlive : ∀ id, id ∈ f.pool.hosts[index].worker.liveIds ↔
      f.router.pinned? id = some index := fun id => by
    rw [hseated.mem_liveIds, hserves.knows]
  -- Both numbers are that of the places of the worker that are not free.
  have hplaces := hserves.length_add_free hseated.nodup_liveIds hlive
  have hcounted := hf.sessions_add_free hinfo hserves
  exact ⟨_, hhost, hseated.nodup_liveIds, hlive, by omega⟩

theorem sessions_le (hf : f.Agrees config capacity) {index : Nat} {info : WorkerInfo}
    (hinfo : f.router.workers[index]? = some info) : info.sessions ≤ capacity := by
  have hindex : index < f.pool.hosts.length :=
    hf.hosts ▸ (List.getElem?_eq_some_iff.mp hinfo).1
  have hserves := hf.serves.hosts index _ (List.getElem?_eq_getElem hindex)
  exact hf.sessions_add_free hinfo hserves ▸ Nat.le_add_right ..

/-- If the worker with the fewest sessions is full, then all are. -/
theorem all_full (hf : f.Agrees config capacity) {index : Nat} {info : WorkerInfo}
    (hlightest : f.router.Lightest index info) (hfull : info.sessions = capacity) (other : Nat)
    (info' : WorkerInfo) (hinfo' : f.router.workers[other]? = some info') :
    info'.sessions = capacity := by
  have hleast := hlightest.least other info' hinfo' (hf.healthy other info' hinfo')
  exact Nat.le_antisymm (hf.sessions_le hinfo') (hfull ▸ hleast)

/-- **What the worker that was picked can answer** to a create: the session is there, and there was
room for it; or there was no room in the queue, the parameters are bad, or the worker is full. -/
theorem call_createSession (hf : f.Agrees config capacity) {index : Nat}
    (hindex : index < f.pool.hosts.length) (sampling : Sampling)
    (hanswer : Acknowledged
      (f.call index (Fleet.clients.createSession index ⟨f.router.nextSession⟩ sampling)).1) :
    (∃ slot fleet', f.call index
          (Fleet.clients.createSession index ⟨f.router.nextSession⟩ sampling) =
        (.ok slot, { f with pool := fleet' }) ∧
      Agrees config capacity { router := f.router.pin index, pool := fleet' } ∧
      ∀ info, f.router.workers[index]? = some info → info.sessions < capacity) ∨
    ∃ e f', f.call index (Fleet.clients.createSession index ⟨f.router.nextSession⟩ sampling) =
        (.error e, f') ∧
      f'.Agrees config capacity ∧
      ((∃ detail, e = .queueFull detail) ∨ sampling.validate = .error e ∨
        ∃ worker, e = .workerAtCapacity worker capacity ∧
          ∀ info, f.router.workers[index]? = some info → info.sessions = capacity) := by
  obtain ⟨pick, hpick, hrequest⟩ : ∃ pick : Ack → Option Slot,
      (∀ slot, pick (.created slot) = some slot) ∧
        Fleet.clients.createSession index ⟨f.router.nextSession⟩ sampling =
          Fleet.request (b := b) index (.createSession ⟨f.router.nextSession⟩ sampling) pick :=
    ⟨_, fun _ => rfl, rfl⟩
  rw [hrequest] at hanswer ⊢
  have hfits : (Command.createSession ⟨f.router.nextSession⟩ sampling).Fits fun id =>
      f.router.pinned? id = some index := hf.counted.not_pinned_next index
  rcases hf.call hindex hfits Command.noConfusion hanswer with
    ⟨detail, r', hsame, heq⟩ | ⟨host, r', fleet', hhost, hsame, hlength, hafter, heq, hkept⟩
  · exact .inr ⟨_, _, heq, hf.of_router hsame, .inl ⟨detail, rfl⟩⟩
  · have hnew : ¬ host.worker.Knows ⟨f.router.nextSession⟩ := by
      rw [hhost.knows]
      exact hf.counted.not_pinned_next index
    rw [Host.apply_fst] at hafter heq hkept
    unfold Worker.handle at hafter heq hkept
    dsimp only at hafter heq hkept
    -- A create that is refused has changed nothing.
    have hrefused : ∀ ack, (∀ slot, ack ≠ .created slot) →
        fleet'.Serves config.worker capacity
          (settled f.router index (.createSession ⟨f.router.nextSession⟩ sampling) ack) →
        Agrees config capacity { router := r', pool := fleet' } := by
      intro ack hack hserves
      refine hf.of_same hsame ?_ hlength
      rwa [settled_of_same fun live => ?_] at hserves
      cases ack with
      | created slot => exact absurd rfl (hack slot)
      | _ => rfl
    rcases hhost.steady.seated.createSession_of_new hnew sampling with
      ⟨e, hinvalid, hresult⟩ | ⟨hfull, hresult⟩ | ⟨slot, w', hroom, hresult⟩
    · rw [hresult] at hafter heq
      exact .inr ⟨e, _, heq, hrefused _ (fun _ => Ack.noConfusion) hafter, .inr (.inl hinvalid)⟩
    · rw [hresult] at hafter heq
      have hagrees := hrefused _ (fun _ => Ack.noConfusion) hafter
      refine .inr ⟨_, _, heq, hagrees, .inr (.inr ⟨host.worker.id, ?_, ?_⟩)⟩
      · rw [hhost.places]
      · intro info hinfo
        have hplaces := hf.sessions_add_free hinfo hhost
        rwa [hfull, List.length_nil, Nat.add_zero] at hplaces
    · rw [hresult] at hafter heq hkept
      have hvalue : (Host.receive (.created slot)).bind (Ack.pick index pick) = .ok slot := by
        show Ack.pick index pick (.created slot) = .ok slot
        rw [Ack.pick, hpick]
      dsimp only at heq hafter
      rw [hvalue, hkept slot hvalue] at heq
      refine .inl ⟨slot, fleet', heq, hf.of_pin hindex hafter hlength, fun info hinfo => ?_⟩
      have hplaces := hf.sessions_add_free hinfo hhost
      have hpos := List.length_pos_iff.mpr hroom
      omega

/-- **What a create can come to** that is acknowledged. It fails for want of room in the queue, for
bad parameters, or because the worker is full; then, if the router picks the worker with the fewest
sessions, all are full. -/
theorem createSession (hf : f.Agrees config capacity) (sampling : Sampling)
    (hanswer : Acknowledged (f.createSession Fleet.clients sampling).1) :
    (f.createSession Fleet.clients sampling).2.Agrees config capacity ∧
      (∀ e, (f.createSession Fleet.clients sampling).1 = .error e →
        (∃ detail, e = .queueFull detail) ∨ sampling.validate = .error e ∨
          ∃ worker, e = .workerAtCapacity worker capacity ∧
            (config.engine.selection = .leastLoaded →
              ∀ (index : Nat) (info : WorkerInfo), f.router.workers[index]? = some info →
                info.sessions = capacity)) ∧
      ∀ id, (f.createSession Fleet.clients sampling).1 = .ok id →
        ∃ index, (f.createSession Fleet.clients sampling).2.router.pinned? id = some index ∧
          (config.engine.selection = .leastLoaded →
            ∃ info, f.router.Lightest index info ∧ info.sessions < capacity) := by
  rcases hselect : f.router.selectWorker with ⟨e | index, r'⟩
  -- If no worker can be reached, the create is not acknowledged.
  · obtain ⟨detail, rfl⟩ := selectWorker_error hselect
    unfold Front.createSession at hanswer
    rw [hselect] at hanswer
    exact absurd rfl (hanswer detail).2
  · have hsame := sameTables_selectWorker hselect
    have hindex : index < f.pool.hosts.length :=
      hf.hosts ▸ lt_of_mem_healthyIndices (mem_of_selectWorker hselect)
    -- Picking a worker changes neither the pins nor the counts.
    have hlightest : config.engine.selection = .leastLoaded →
        ∃ info, f.router.Lightest index info := fun hpolicy =>
      lightest_of_selectWorker (hf.selection.trans hpolicy) hselect
    rcases (hf.of_router hsame).call_createSession hindex sampling
        (acknowledged_call hselect hanswer) with
      ⟨slot, fleet', heq, hafter, hroom⟩ | ⟨e, f', heq, hafter, hcause⟩
    -- The worker has answered with a slot, so it had room.
    · rw [createSession_of_ok hselect heq]
      refine ⟨hafter, nofun, fun id hid => ⟨index, ?_, fun hpolicy => ?_⟩⟩
      · rw [pinned?_pin, if_pos (Except.ok.inj hid).symm]
      · obtain ⟨info, hinfo⟩ := hlightest hpolicy
        exact ⟨info, hinfo, hroom info (hsame.workers ▸ hinfo.found)⟩
    -- It has refused. If it is full, then so are all, as it had the fewest sessions.
    · rw [(createSession_of_error hselect heq hanswer).1]
      refine ⟨hafter, fun e' he => ?_, nofun⟩
      obtain rfl := Except.error.inj he
      rcases hcause with hqueue | hinvalid | ⟨worker, rfl, hfull⟩
      · exact .inl hqueue
      · exact .inr (.inl hinvalid)
      · refine .inr (.inr ⟨worker, rfl, fun hpolicy => ?_⟩)
        obtain ⟨info, hinfo⟩ := hlightest hpolicy
        exact hf.all_full hinfo (hfull info (hsame.workers ▸ hinfo.found))

theorem statusOf (hf : f.Agrees config capacity) (indices : List Nat)
    (hindices : ∀ index ∈ indices, index < f.pool.hosts.length)
    (hanswer : Acknowledged (Front.statusOf Fleet.clients indices f).1) :
    (Front.statusOf Fleet.clients indices f).2.Agrees config capacity := by
  induction indices generalizing f with
  | nil => exact hf
  | cons index rest ih =>
    obtain ⟨hindex, hrest⟩ := List.forall_mem_cons.mp hindices
    obtain ⟨pick, hrequest⟩ : ∃ pick : Ack → Option WorkerStatus,
        Fleet.clients.status index = Fleet.request (b := b) index .status pick := ⟨_, rfl⟩
    have hfits : Command.status.Fits fun id => f.router.pinned? id = some index := trivial
    have hcall := hf.call_same hindex hfits (fun _ _ => rfl) Command.noConfusion pick
    unfold Front.statusOf at hanswer ⊢
    rw [hrequest] at hanswer ⊢
    rcases hanswer' : f.call index (Fleet.request index .status pick) with ⟨e | status, f'⟩
    · rw [hanswer'] at hanswer hcall
      exact (hcall (acknowledged_error hanswer)).1
    · rw [hanswer'] at hanswer hcall
      obtain ⟨hafter, hlength, -⟩ := hcall (acknowledged_ok status)
      dsimp only at hafter hlength
      rw [← hlength] at hrest
      exact ih hafter hrest (acknowledged_map.mp hanswer)

/-- **Every operation that is acknowledged keeps router and workers in agreement**, and for a
session that is pinned it fails only for want of room in the queue, or because a text has no
tokens. -/
theorem perform (hf : f.Agrees config capacity) (operation : Operation)
    (hanswer : Acknowledged (f.perform Fleet.clients operation).1) :
    (f.perform Fleet.clients operation).2.Agrees config capacity ∧
      ∀ id command index e, operation.command? f.router = some (id, command) →
        f.router.pinned? id = some index → (f.perform Fleet.clients operation).1 = .error e →
          (∃ detail, e = .queueFull detail) ∨
            ∃ text, operation = .append id text ∧ b.tokenize text = .error e := by
  cases operation with
  | create sampling =>
    -- A create names no session that is pinned.
    exact ⟨(hf.createSession sampling (acknowledged_map.mp hanswer)).1, nofun⟩
  | append id text =>
    obtain ⟨hafter, hcauses⟩ := hf.appendInput id text (acknowledged_map.mp hanswer)
    refine ⟨hafter, ?_⟩
    rintro _ _ index e ⟨⟩ hpin he
    exact (hcauses index e hpin (error_of_map he)).imp_right fun htokens => ⟨text, rfl, htokens⟩
  | generate id budget =>
    obtain ⟨hafter, hcauses⟩ := hf.generate id budget
    refine ⟨hafter, ?_⟩
    rintro _ _ index e ⟨⟩ hpin he
    exact .inl (hcauses index e hpin (error_of_map he))
  | cancel id =>
    obtain ⟨hafter, hcauses⟩ := hf.cancelGenerate id (acknowledged_map.mp hanswer)
    refine ⟨hafter, ?_⟩
    rintro _ _ index e ⟨⟩ hpin he
    exact .inl (hcauses index e hpin (error_of_map he))
  | endSession id =>
    obtain ⟨hafter, hcauses⟩ := hf.endSession id (acknowledged_map.mp hanswer)
    refine ⟨hafter, ?_⟩
    rintro _ _ index e ⟨⟩ hpin he
    exact .inl (hcauses index e hpin (error_of_map he))
  | snapshot id =>
    obtain ⟨hafter, hcauses⟩ := hf.snapshot id (acknowledged_map.mp hanswer)
    refine ⟨hafter, ?_⟩
    rintro _ _ index e ⟨⟩ hpin he
    exact .inl (hcauses index e hpin (error_of_map he))
  | status =>
    refine ⟨hf.statusOf _ (fun index hmem => ?_) (acknowledged_map.mp hanswer), nofun⟩
    exact hf.hosts ▸ List.mem_range.mp hmem

theorem fleet (contexts : List b.Context) (config : Config) (capacity : Nat)
    (hcapacity : ∀ context ∈ contexts,
      min config.worker.maxSessions (b.slotCount context) = capacity) :
    (Front.fleet contexts config).Agrees config capacity := by
  refine ⟨⟨fun index h hh => ?_, rfl⟩, ?_, nofun, .ofWorkers _ config,
    allHealthy_ofWorkers _ config, rfl⟩
  · change (contexts.mapIdx _)[index]? = some h at hh
    rw [List.getElem?_mapIdx] at hh
    obtain ⟨context, hcontext, rfl⟩ := Option.map_eq_some_iff.mp hh
    refine ⟨⟨rfl, nofun, Worker.seated_start .., rfl⟩, ?_, ?_, nofun⟩
    · show (List.replicate _ none).length = capacity
      rw [List.length_replicate]
      exact hcapacity context (List.mem_of_getElem? hcontext)
    · funext id
      exact eq_false (fun hknown => hknown rfl) |>.trans (eq_false nofun).symm
  · show _ = ((List.map _ _).map _).length
    rw [List.length_map, List.length_map]
    rfl

/-- The waits to come do not matter. -/
theorem withPauses (hf : f.Agrees config capacity) (pauses : List Pause) :
    Agrees config capacity { f with pool := { f.pool with pauses } } :=
  ⟨⟨hf.serves.hosts, hf.serves.fitting⟩, hf.hosts, hf.range, hf.counted, hf.healthy, hf.selection⟩

theorem playFleet (hf : f.Agrees config capacity) (moves : List FleetMove)
    (hanswers : ∀ answer ∈ f.answers moves, Acknowledged answer) :
    (f.playFleet moves).Agrees config capacity := by
  induction moves generalizing f with
  | nil => exact hf
  | cons m rest ih =>
    cases m with
    | operation operation pauses =>
      obtain ⟨hnow, hlater⟩ := List.forall_mem_cons.mp hanswers
      exact ih ((hf.withPauses pauses).perform operation hnow).1 hlater
    | threads steps =>
      refine ih ⟨hf.serves.run steps, ?_, hf.range, hf.counted, hf.healthy, hf.selection⟩ hanswers
      exact (f.pool.length_run steps).trans hf.hosts

end Agrees

/-- No worker joins or leaves. -/
theorem length_workers_playFleet (f : Front (Fleet b)) (moves : List FleetMove) :
    (f.playFleet moves).router.workers.length = f.router.workers.length := by
  induction moves generalizing f with
  | nil => rfl
  | cons m rest ih =>
    refine (ih (f.moveFleet m)).trans ?_
    cases m with
    | operation operation pauses =>
      exact (step_perform Fleet.clients _ operation).effect.length_workers
    | threads steps => rfl

/-- **Router and workers agree.** Start workers that hold equally many sessions, as an engine does
(`Engine.fleet_of_start`), and let the router perform any operations while the threads do what they
like, as long as every request is acknowledged and no worker is found unreachable. Then, after every
operation:

* The sessions that are live on a worker are just those that are pinned to it, and the router counts
  them right.
* No thread has ever taken up a command for a session that its worker did not have, nor a create for
  one that it had.
* Hence the next operation for a session that is pinned, if it is acknowledged, fails only because
  there is no room in the queue or because the text has no tokens; it never fails because the worker
  does not know the session.
* A create that is acknowledged fails for want of room in the queue, for bad parameters, or because
  the worker is full; and if the router picks the worker with the fewest sessions, then all workers
  are full. If it succeeds there, the worker had room and the fewest sessions of all, and fewer than
  those before it. -/
theorem agreement_play (contexts : List b.Context) (config : Config) (capacity : Nat)
    (hcapacity : ∀ context ∈ contexts,
      min config.worker.maxSessions (b.slotCount context) = capacity)
    (moves : List FleetMove)
    (hanswers : ∀ answer ∈ (Front.fleet contexts config).answers moves, Acknowledged answer) :
    let f := (Front.fleet contexts config).playFleet moves
    (f.router.workers.length = contexts.length ∧
      (∀ id index, f.router.pinned? id = some index → index < contexts.length) ∧
      ∀ (index : Nat) (info : WorkerInfo), f.router.workers[index]? = some info →
        ∃ h : Host b, f.pool.hosts[index]? = some h ∧ h.worker.liveIds.Nodup ∧
          (∀ id, id ∈ h.worker.liveIds ↔ f.router.pinned? id = some index) ∧
          info.sessions = h.worker.liveIds.length) ∧
    f.pool.misfits = [] ∧
    (∀ operation pauses id command index e,
      operation.command? f.router = some (id, command) → f.router.pinned? id = some index →
        Acknowledged (f.operate operation pauses).1 → (f.operate operation pauses).1 = .error e →
          (∃ detail, e = .queueFull detail) ∨
            ∃ text, operation = .append id text ∧ b.tokenize text = .error e) ∧
    ∀ sampling pauses, Acknowledged (f.operate (.create sampling) pauses).1 →
      (∀ e, (f.operate (.create sampling) pauses).1 = .error e →
        (∃ detail, e = .queueFull detail) ∨ sampling.validate = .error e ∨
          ∃ worker, e = .workerAtCapacity worker capacity ∧
            (config.engine.selection = .leastLoaded →
              ∀ info ∈ f.router.workers, info.sessions = capacity)) ∧
      ∀ id, (f.operate (.create sampling) pauses).1 = .ok (.created id) →
        config.engine.selection = .leastLoaded →
          ∃ index info,
            (f.operate (.create sampling) pauses).2.router.pinned? id = some index ∧
            f.router.workers[index]? = some info ∧ info.sessions < capacity ∧
            ∀ (other : Nat) (info' : WorkerInfo), f.router.workers[other]? = some info' →
              info.sessions ≤ info'.sessions ∧
              (other < index → info.sessions < info'.sessions) := by
  intro f
  have hf : f.Agrees config capacity :=
    (Agrees.fleet contexts config capacity hcapacity).playFleet moves hanswers
  have hcount : f.router.workers.length = contexts.length := by
    rw [length_workers_playFleet, ← (Agrees.fleet contexts config capacity hcapacity).hosts]
    exact List.length_mapIdx
  -- The invariant holds after any operations; the four parts are read off it.
  refine ⟨⟨hcount, hcount ▸ hf.range, fun index info hinfo => ?_⟩, hf.serves.fitting,
    fun operation pauses id command index e hop hpin hanswer he => ?_,
    fun sampling pauses hanswer => ?_⟩
  · exact hf.exists_host hinfo
  -- An operation for a pinned session is one more step of the run.
  · exact ((hf.withPauses pauses).perform operation hanswer).2 id command index e hop hpin he
  -- So is a create. What it fails for is known from the step.
  · obtain ⟨-, hcauses, hplaced⟩ :=
      (hf.withPauses pauses).createSession sampling (acknowledged_map.mp hanswer)
    refine ⟨fun e he => ?_, fun id hid hpolicy => ?_⟩
    · rcases hcauses e (error_of_map he) with hfull | hinvalid | ⟨worker, rfl, hall⟩
      · exact .inl hfull
      · exact .inr (.inl hinvalid)
      · refine .inr (.inr ⟨worker, rfl, fun hpolicy info hmem => ?_⟩)
        obtain ⟨index, hinfo⟩ := List.mem_iff_getElem?.mp hmem
        exact hall hpolicy index info hinfo
    -- A create that succeeds has taken a place on the worker that the policy has picked, and all
    -- workers are healthy, so the comparison was with each of them.
    · obtain ⟨index, hpin, hlightest⟩ := hplaced id (created_of_map hid)
      obtain ⟨info, hinfo, hroom⟩ := hlightest hpolicy
      refine ⟨index, info, hpin, hinfo.found, hroom, fun other info' hinfo' => ⟨?_, ?_⟩⟩
      · exact hinfo.least other info' hinfo' (hf.healthy other info' hinfo')
      · exact hinfo.first other info' hinfo' (hf.healthy other info' hinfo')

/-- Two workers with one place each, and two sessions that are created there. -/
def twoSessions : List FleetMove :=
  [.operation (.create {}) [{ steps := [[.takeUp]], givesUp := false }],
    .operation (.create {}) [{ steps := [[], [.takeUp]], givesUp := false }]]

theorem agreement_play_full :
    let config : Config := { engine := { selection := .leastLoaded } }
    let f := (Front.fleet (b := ByteModel.backend {})
      [ByteModel.Context.mk [[]], ByteModel.Context.mk [[]]] config).playFleet twoSessions
    (f.operate (.create {}) [{ steps := [[.takeUp]], givesUp := false }]).1 =
        .error (.workerAtCapacity ⟨0⟩ 1) ∧
      ∀ info ∈ f.router.workers, info.sessions = 1 := by
  intro config f
  have hrefused : (f.operate (.create {}) [{ steps := [[.takeUp]], givesUp := false }]).1 =
      .error (.workerAtCapacity ⟨0⟩ 1) := by
    decide +kernel
  have hanswers : (Front.fleet (b := ByteModel.backend {})
      [ByteModel.Context.mk [[]], ByteModel.Context.mk [[]]] config).answers twoSessions =
        [.ok (.created ⟨1⟩), .ok (.created ⟨2⟩)] := by
    decide +kernel
  obtain ⟨-, -, -, hcreate⟩ := agreement_play (b := ByteModel.backend {})
    [ByteModel.Context.mk [[]], ByteModel.Context.mk [[]]] config 1 (by decide) twoSessions
    (by rw [hanswers]; simp [Acknowledged])
  obtain ⟨hcauses, -⟩ := hcreate {} [{ steps := [[.takeUp]], givesUp := false }]
    (by rw [hrefused]; simp [Acknowledged])
  rcases hcauses _ hrefused with ⟨detail, hfull⟩ | hinvalid | ⟨worker, -, hall⟩
  · cases hfull
  · exact absurd hinvalid (by decide +kernel)
  · exact ⟨hrefused, hall rfl⟩

end Front

end Turnwise
