import Turnwise.Router

/-!
# Operations of a router

A run of a router is a list of operations. What the workers answer is up to the clients, which may
be any record of functions on any state, so a statement about all clients is a statement about all
ways in which workers can answer, or fail to.

`Router.Step` is the router's side of an operation by itself: what it was asked, which commands it
sent to which workers, what it answered and what it remembers. There is one constructor for each way
in which an operation can go, and `step_perform` is the only place that looks at the operations
themselves. A `Router.Trace` is a list of steps, and every run of a front is one (`trace_front`).

To see the commands that a front sends, its clients are made to keep a record of them
(`Clients.recorded`). This changes nothing else (`perform_forget`).
-/

namespace Turnwise

/-- What a caller can ask of a router. -/
inductive Operation where
  | create (sampling : Sampling)
  | append (id : SessionId) (text : String)
  | generate (id : SessionId) (budget : Nat)
  | cancel (id : SessionId)
  | endSession (id : SessionId)
  | snapshot (id : SessionId)
  | status
  deriving DecidableEq, Repr

/-- What an operation that succeeds gives its caller. -/
inductive Reply where
  | created (id : SessionId)
  | queued (count : Nat)
  | streaming (worker : Nat) (stream : Option StreamId)
  | cancelled
  | ended
  | snapshot (view : SessionSnapshot)
  | status (views : List WorkerStatus)
  deriving DecidableEq, Repr

/-- Commands that were sent, in order, each with the index of the worker that it was sent to. -/
abbrev Sent := List (Nat × Command)

/-- The session that a command is for. -/
def Command.session? : Command → Option SessionId
  | createSession id _ | appendInput id _ | generate id _ _ | cancel id | endSession id
  | snapshot id => some id
  | status | shutdown => none

/-- The session that an operation names, and the command that it sends for this session. -/
def Operation.command? (r : Router) : Operation → Option (SessionId × Command)
  | append id text => some (id, .appendInput id text)
  | generate id budget => some (id, .generate id budget r.streamBufferSize)
  | cancel id => some (id, .cancel id)
  | endSession id => some (id, .endSession id)
  | snapshot id => some (id, .snapshot id)
  | create _ | status => none

/-! ### Clients that keep a record -/

section Recorded

variable {σ α : Type}

/-- A request that is put on record. -/
def noting (index : Nat) (command : Command) (request : σ → Except Error α × σ) (s : σ × Sent) :
    Except Error α × (σ × Sent) :=
  ((request s.1).1, ((request s.1).2, s.2 ++ [(index, command)]))

/-- Clients that keep a record of the commands that they are asked to send. -/
def Clients.recorded (c : Clients σ) : Clients (σ × Sent) where
  createSession index id sampling :=
    noting index (.createSession id sampling) (c.createSession index id sampling)
  appendInput index id text := noting index (.appendInput id text) (c.appendInput index id text)
  generate index id budget capacity :=
    noting index (.generate id budget capacity) (c.generate index id budget capacity)
  cancel index id := noting index (.cancel id) (c.cancel index id)
  endSession index id := noting index (.endSession id) (c.endSession index id)
  endDetached index id := noting index (.endSession id) (c.endDetached index id)
  snapshot index id := noting index (.snapshot id) (c.snapshot index id)
  status index := noting index .status (c.status index)

theorem Clients.recorded_createSession (c : Clients σ) (index : Nat) (id : SessionId)
    (sampling : Sampling) :
    c.recorded.createSession index id sampling =
      noting index (.createSession id sampling) (c.createSession index id sampling) := rfl

theorem Clients.recorded_endSession (c : Clients σ) (index : Nat) (id : SessionId) :
    c.recorded.endSession index id =
      noting index (.endSession id) (c.endSession index id) := rfl

theorem Clients.recorded_status (c : Clients σ) (index : Nat) :
    c.recorded.status index = noting index .status (c.status index) := rfl

end Recorded

namespace Front

variable {σ : Type}

/-! ### Runs -/

def perform (c : Clients σ) (f : Front σ) : Operation → Except Error Reply × Front σ
  | .create sampling => let (answer, f) := f.createSession c sampling; (answer.map .created, f)
  | .append id text => let (answer, f) := f.appendInput c id text; (answer.map .queued, f)
  | .generate id budget =>
      let (answer, f) := f.generate c id budget
      (answer.map fun opened => .streaming opened.1 opened.2, f)
  | .cancel id => let (answer, f) := f.cancelGenerate c id; (answer.map fun _ => .cancelled, f)
  | .endSession id => let (answer, f) := f.endSession c id; (answer.map fun _ => .ended, f)
  | .snapshot id => let (answer, f) := f.snapshot c id; (answer.map .snapshot, f)
  | .status => let (answer, f) := f.workerStatus c; (answer.map .status, f)

/-- The front after some operations. -/
def after (c : Clients σ) (f : Front σ) (operations : List Operation) : Front σ :=
  operations.foldl (fun f operation => (f.perform c operation).2) f

/-- The operations with their answers. -/
def history (c : Clients σ) (f : Front σ) :
    List Operation → List (Operation × Except Error Reply)
  | [] => []
  | operation :: rest =>
      (operation, (f.perform c operation).1) :: (f.perform c operation).2.history c rest

/-- A front whose clients start keeping a record. -/
def recording (f : Front σ) : Front (σ × Sent) where
  router := f.router
  pool := (f.pool, [])

/-- The commands that are sent to workers in the course of some operations. -/
def commandsSent (c : Clients σ) (f : Front σ) (operations : List Operation) : Sent :=
  (f.recording.after c.recorded operations).pool.2

@[simp] theorem after_nil (c : Clients σ) (f : Front σ) : f.after c [] = f := rfl

@[simp] theorem after_cons (c : Clients σ) (f : Front σ) (operation : Operation)
    (rest : List Operation) :
    f.after c (operation :: rest) = (f.perform c operation).2.after c rest := rfl

/-! ### The record changes nothing -/

/-- The front without the record. -/
def forget (f : Front (σ × Sent)) : Front σ where
  router := f.router
  pool := f.pool.1

section Forget

variable (c : Clients σ) (f : Front (σ × Sent))

theorem call_forget {α : Type} (index : Nat) (recorded : σ × Sent → Except Error α × (σ × Sent))
    (request : σ → Except Error α × σ)
    (h : ∀ s, Prod.map id Prod.fst (recorded s) = request s.1) :
    Prod.map id forget (f.call index recorded) = f.forget.call index request := by
  unfold call forget
  rw [← h f.pool]
  rcases recorded f.pool with ⟨_ | _, pool⟩ <;> rfl

theorem route_forget {α : Type} (session : SessionId)
    (recorded : Nat → σ × Sent → Except Error α × (σ × Sent))
    (request : Nat → σ → Except Error α × σ)
    (h : ∀ index s, Prod.map id Prod.fst (recorded index s) = request index s.1) :
    Prod.map id forget (f.route session recorded) = f.forget.route session request := by
  unfold route
  rw [show f.forget.router = f.router from rfl]
  cases f.router.pinned? session with
  | none => rfl
  | some index => exact f.call_forget index (recorded index) (request index) (h index)

theorem createSession_forget (sampling : Sampling) :
    Prod.map id forget (f.createSession c.recorded sampling) =
      f.forget.createSession c sampling := by
  unfold createSession
  rw [show f.forget.router = f.router from rfl]
  rcases f.router.selectWorker with ⟨e | index, router⟩
  · rfl
  · have hcall := call_forget { f with router } index
      (c.recorded.createSession index ⟨router.nextSession⟩ sampling)
      (c.createSession index ⟨router.nextSession⟩ sampling) fun _ => rfl
    dsimp only
    rw [show { f.forget with router } = forget { f with router } from rfl, ← hcall]
    rcases call { f with router } index _ with ⟨e | slot, f'⟩
    · cases e <;> rfl
    · rfl

theorem endSession_forget (session : SessionId) :
    Prod.map id forget (f.endSession c.recorded session) = f.forget.endSession c session := by
  unfold endSession
  rw [show f.forget.router = f.router from rfl]
  cases f.router.pinned? session with
  | none =>
    dsimp only
    split <;> rfl
  | some index =>
    have hcall := f.call_forget index (c.recorded.endSession index session)
      (c.endSession index session) fun _ => rfl
    dsimp only
    rw [← hcall]
    rcases f.call index _ with ⟨_ | _, f'⟩ <;> rfl

theorem statusOf_forget (indices : List Nat) :
    Prod.map id forget (statusOf c.recorded indices f) = statusOf c indices f.forget := by
  induction indices generalizing f with
  | nil => rfl
  | cons index rest ih =>
    have hcall := f.call_forget index (c.recorded.status index) (c.status index) fun _ => rfl
    unfold statusOf
    rw [← hcall]
    rcases f.call index _ with ⟨_ | status, f'⟩
    · rfl
    · dsimp only [Prod.map, id]
      rw [← ih f']
      rfl

theorem appendInput_forget (session : SessionId) (text : String) :
    Prod.map id forget (f.appendInput c.recorded session text) =
      f.forget.appendInput c session text :=
  f.route_forget session _ _ fun _ _ => rfl

theorem generate_forget (session : SessionId) (budget : Nat) :
    Prod.map id forget (f.generate c.recorded session budget) =
      f.forget.generate c session budget :=
  f.route_forget session _ _ fun _ _ => rfl

theorem cancelGenerate_forget (session : SessionId) :
    Prod.map id forget (f.cancelGenerate c.recorded session) =
      f.forget.cancelGenerate c session :=
  congrArg (Prod.map (Except.map fun _ => ()) id)
    (f.route_forget session (fun index => c.recorded.cancel index session)
      (fun index => c.cancel index session) fun _ _ => rfl)

theorem snapshot_forget (session : SessionId) :
    Prod.map id forget (f.snapshot c.recorded session) = f.forget.snapshot c session :=
  f.route_forget session _ _ fun _ _ => rfl

/-- **Keeping a record changes nothing else.** -/
theorem perform_forget (operation : Operation) :
    Prod.map id forget (f.perform c.recorded operation) = f.forget.perform c operation := by
  cases operation with
  | create sampling =>
    exact congrArg (Prod.map (Except.map Reply.created) id) (f.createSession_forget c sampling)
  | append session text =>
    exact congrArg (Prod.map (Except.map Reply.queued) id) (f.appendInput_forget c session text)
  | generate session budget =>
    let opened (answer : Nat × Option StreamId) := Reply.streaming answer.1 answer.2
    exact congrArg (Prod.map (Except.map opened) id) (f.generate_forget c session budget)
  | cancel session =>
    let done (_ : Unit) := Reply.cancelled
    exact congrArg (Prod.map (Except.map done) id) (f.cancelGenerate_forget c session)
  | endSession session =>
    let done (_ : Unit) := Reply.ended
    exact congrArg (Prod.map (Except.map done) id) (f.endSession_forget c session)
  | snapshot session =>
    exact congrArg (Prod.map (Except.map Reply.snapshot) id) (f.snapshot_forget c session)
  | status =>
    exact congrArg (Prod.map (Except.map Reply.status) id)
      (f.statusOf_forget c (List.range f.router.workers.length))

end Forget

end Front

/-! ### One operation, seen from the router -/

namespace Router

/-- What an operation can do: the commands that it sends, its answer, and the router after it. The
workers may answer the commands in any way. -/
inductive Step (r : Router) : Operation → Sent → Except Error Reply → Router → Prop
  /-- There is no worker to pick. -/
  | unplaced {sampling : Sampling} {e : Error} {r' : Router}
      (hselect : r.selectWorker = (.error e, r')) : Step r (.create sampling) [] (.error e) r'
  | created {sampling : Sampling} {index : Nat} {r' : Router}
      (hselect : r.selectWorker = (.ok index, r')) :
      Step r (.create sampling) [(index, .createSession ⟨r'.nextSession⟩ sampling)]
        (.ok (.created ⟨r'.nextSession⟩)) (r'.pin index)
  /-- The worker may create the session yet, so it is told to end it. -/
  | retired {sampling : Sampling} {index : Nat} {r' : Router} {detail : String}
      (hselect : r.selectWorker = (.ok index, r')) :
      Step r (.create sampling)
        [(index, .createSession ⟨r'.nextSession⟩ sampling), (index, .endSession ⟨r'.nextSession⟩)]
        (.error (.timeout detail)) (r'.markFailed index (.timeout detail)).abandon
  | rejected {sampling : Sampling} {index : Nat} {r' : Router} {e : Error}
      (hselect : r.selectWorker = (.ok index, r')) (he : ∀ detail, e ≠ .timeout detail) :
      Step r (.create sampling) [(index, .createSession ⟨r'.nextSession⟩ sampling)] (.error e)
        (r'.markFailed index e)
  /-- The session is not pinned, and this is no repeated end. -/
  | unknown {operation : Operation} {id : SessionId} {command : Command}
      (hop : operation.command? r = some (id, command)) (hpin : r.pinned? id = none)
      (hend : operation = .endSession id → r.wasIssued id = false) :
      Step r operation [] (.error (.unknownSession id)) r.countUnknown
  | served {operation : Operation} {id : SessionId} {command : Command} {index : Nat}
      {reply : Reply} (hop : operation.command? r = some (id, command))
      (hend : operation ≠ .endSession id) (hpin : r.pinned? id = some index)
      (hreply : ∀ id, reply ≠ .created id) :
      Step r operation [(index, command)] (.ok reply) r
  | failed {operation : Operation} {id : SessionId} {command : Command} {index : Nat} {e : Error}
      (hop : operation.command? r = some (id, command)) (hpin : r.pinned? id = some index) :
      Step r operation [(index, command)] (.error e) (r.markFailed index e)
  | ended {id : SessionId} {index : Nat} (hpin : r.pinned? id = some index) :
      Step r (.endSession id) [(index, .endSession id)] (.ok .ended) (r.unpin id index)
  /-- The session was ended before, so nobody needs to be asked. -/
  | endedAgain {id : SessionId} (hpin : r.pinned? id = none) (hissued : r.wasIssued id = true) :
      Step r (.endSession id) [] (.ok .ended) r
  | surveyed {views : List WorkerStatus} :
      Step r .status ((List.range r.workers.length).map fun index => (index, .status))
        (.ok (.status views)) r
  /-- The first worker that fails ends the round. -/
  | unsurveyed {before rest : List Nat} {index : Nat} {e : Error}
      (hround : List.range r.workers.length = before ++ index :: rest) :
      Step r .status ((before ++ [index]).map fun index => (index, .status)) (.error e)
        (r.markFailed index e)

/-- A list of operations with their answers, the commands that were sent, and the router after
it. -/
inductive Trace : Router → List (Operation × Except Error Reply) → Sent → Router → Prop
  | nil (r : Router) : Trace r [] [] r
  | cons {r r' r'' : Router} {operation : Operation} {sent sent' : Sent}
      {answer : Except Error Reply} {turns : List (Operation × Except Error Reply)}
      (hstep : Step r operation sent answer r') (hrest : Trace r' turns sent' r'') :
      Trace r ((operation, answer) :: turns) (sent ++ sent') r''

end Router

namespace Front

variable {σ : Type} {c : Clients σ} {f : Front (σ × Sent)}

/-- The outcome of an operation is one that the router can have, and the record shows the commands
that it sent. -/
def Steps (f : Front (σ × Sent)) (operation : Operation)
    (outcome : Except Error Reply × Front (σ × Sent)) : Prop :=
  ∃ sent, outcome.2.pool.2 = f.pool.2 ++ sent ∧
    f.router.Step operation sent outcome.1 outcome.2.router

/-- A request has gone on record, whether the worker has answered it or not. -/
theorem call_noting {β : Type} (f : Front (σ × Sent)) (index : Nat) (command : Command)
    (request : σ → Except Error β × σ) :
    (∃ value pool, f.call index (noting index command request) =
      (.ok value, { f with pool := (pool, f.pool.2 ++ [(index, command)]) })) ∨
    ∃ e pool, f.call index (noting index command request) =
      (.error e,
        { router := f.router.markFailed index e
          pool := (pool, f.pool.2 ++ [(index, command)]) }) := by
  unfold call noting
  rcases request f.pool.1 with ⟨e | value, pool⟩
  · exact Or.inr ⟨e, pool, rfl⟩
  · exact Or.inl ⟨value, pool, rfl⟩

/-- An operation that does no more than pass a command on. -/
theorem steps_route {β : Type} (operation : Operation) {session : SessionId} {command : Command}
    (hop : operation.command? f.router = some (session, command))
    (hend : operation ≠ .endSession session) (request : Nat → σ → Except Error β × σ)
    (reply : Except Error β → Except Error Reply) (herror : ∀ e, reply (.error e) = .error e)
    (hok : ∀ value, ∃ r, reply (.ok value) = .ok r ∧ ∀ id, r ≠ .created id) :
    f.Steps operation (Prod.map reply id
      (f.route session fun index => noting index command (request index))) := by
  unfold route
  cases hpin : f.router.pinned? session with
  | none =>
    refine ⟨[], (List.append_nil _).symm, ?_⟩
    rw [Prod.map, herror]
    exact .unknown hop hpin fun h => absurd h hend
  | some index =>
    dsimp only
    rcases f.call_noting index command (request index) with ⟨value, pool, heq⟩ | ⟨e, pool, heq⟩
    · obtain ⟨r, hr, hcreated⟩ := hok value
      rw [heq]
      refine ⟨[(index, command)], rfl, ?_⟩
      rw [Prod.map, hr]
      exact .served hop hend hpin hcreated
    · rw [heq]
      refine ⟨[(index, command)], rfl, ?_⟩
      rw [Prod.map, herror]
      exact .failed hop hpin

theorem steps_create (sampling : Sampling) :
    f.Steps (.create sampling) (f.perform c.recorded (.create sampling)) := by
  unfold perform createSession
  rcases hselect : f.router.selectWorker with ⟨e | index, router⟩
  · exact ⟨[], (List.append_nil _).symm, .unplaced hselect⟩
  · dsimp only
    rcases call_noting { f with router } index (.createSession ⟨router.nextSession⟩ sampling)
        (c.createSession index ⟨router.nextSession⟩ sampling) with
      ⟨slot, pool, heq⟩ | ⟨e, pool, heq⟩
    · rw [Clients.recorded_createSession, heq]
      exact ⟨_, rfl, .created hselect⟩
    · rw [Clients.recorded_createSession, heq]
      -- Only a create that timed out has more to do.
      by_cases htimeout : ∃ detail, e = .timeout detail
      · obtain ⟨detail, rfl⟩ := htimeout
        exact ⟨_, List.append_assoc .., .retired hselect⟩
      · have hother : ∀ detail, e ≠ .timeout detail := fun detail h => htimeout ⟨detail, h⟩
        cases e with
        | timeout detail => exact absurd rfl (hother detail)
        | _ => exact ⟨_, rfl, .rejected hselect hother⟩

theorem steps_endSession (session : SessionId) :
    f.Steps (.endSession session) (f.perform c.recorded (.endSession session)) := by
  have hop : (Operation.endSession session).command? f.router =
      some (session, .endSession session) := rfl
  cases hpin : f.router.pinned? session with
  | none =>
    by_cases hissued : f.router.wasIssued session = true
    · have hagain : f.endSession c.recorded session = (.ok (), f) := by
        rw [endSession, hpin]
        exact if_pos hissued
      rw [perform, hagain]
      exact ⟨[], (List.append_nil _).symm, .endedAgain hpin hissued⟩
    · have hunknown : f.endSession c.recorded session =
          (.error (.unknownSession session), { f with router := f.router.countUnknown }) := by
        rw [endSession, hpin]
        exact if_neg hissued
      rw [perform, hunknown]
      exact ⟨[], (List.append_nil _).symm,
        .unknown hop hpin fun _ => Bool.eq_false_iff.mpr hissued⟩
  | some index =>
    rcases f.call_noting index (.endSession session) (c.endSession index session) with
      ⟨outcome, pool, heq⟩ | ⟨e, pool, heq⟩
    · rw [perform, endSession, hpin]
      dsimp only
      rw [Clients.recorded_endSession, heq]
      exact ⟨_, rfl, .ended hpin⟩
    · rw [perform, endSession, hpin]
      dsimp only
      rw [Clients.recorded_endSession, heq]
      exact ⟨_, rfl, .failed hop hpin⟩

/-- A round of status requests goes from worker to worker until one fails. -/
theorem statusOf_recorded (indices : List Nat) (f : Front (σ × Sent)) :
    (∃ views pool, statusOf c.recorded indices f =
      (.ok views, { f with
        pool := (pool, f.pool.2 ++ indices.map fun index => (index, .status)) })) ∨
    ∃ before index rest e pool, indices = before ++ index :: rest ∧
      statusOf c.recorded indices f =
        (.error e,
          { router := f.router.markFailed index e
            pool :=
              (pool, f.pool.2 ++ (before ++ [index]).map fun index => (index, .status)) }) := by
  induction indices generalizing f with
  | nil => exact Or.inl ⟨[], f.pool.1, by rw [List.map_nil, List.append_nil]; rfl⟩
  | cons index rest ih =>
    unfold statusOf
    rcases f.call_noting index .status (c.status index) with
      ⟨view, pool, heq⟩ | ⟨e, pool, heq⟩
    · have happend : ∀ indices : List Nat,
          f.pool.2 ++ [(index, .status)] ++ indices.map (fun index => (index, Command.status)) =
            f.pool.2 ++ (index :: indices).map fun index => (index, .status) := by
        intro indices
        rw [List.append_assoc, List.singleton_append, List.map_cons]
      rw [Clients.recorded_status, heq]
      dsimp only
      rcases ih { f with pool := (pool, f.pool.2 ++ [(index, .status)]) } with
        ⟨views, pool', hrest⟩ | ⟨before, index', rest', e, pool', rfl, hrest⟩
      · rw [hrest]
        refine Or.inl ⟨view :: views, pool', ?_⟩
        rw [← happend]
        rfl
      · rw [hrest]
        refine Or.inr ⟨index :: before, index', rest', e, pool', rfl, ?_⟩
        rw [List.cons_append, ← happend]
        rfl
    · rw [Clients.recorded_status, heq]
      exact Or.inr ⟨[], index, rest, e, pool, rfl, rfl⟩

/-- **Every operation is one of these steps**, whatever the workers answer. -/
theorem steps_perform (c : Clients σ) (f : Front (σ × Sent)) (operation : Operation) :
    f.Steps operation (f.perform c.recorded operation) := by
  -- Four operations differ only in the call and in the reply that they make of its answer.
  cases operation with
  | create sampling => exact steps_create sampling
  | append session text =>
    exact steps_route (.append session text) rfl Operation.noConfusion
      (fun index => c.appendInput index session text) (Except.map Reply.queued) (fun _ => rfl)
      fun value => ⟨_, rfl, fun _ => Reply.noConfusion⟩
  | generate session budget =>
    exact steps_route (.generate session budget) rfl Operation.noConfusion
      (fun index pool => Prod.map (Except.map fun stream => (index, stream)) id
        (c.generate index session budget f.router.streamBufferSize pool))
      (Except.map fun opened => .streaming opened.1 opened.2) (fun _ => rfl)
      fun value => ⟨_, rfl, fun _ => Reply.noConfusion⟩
  | cancel session =>
    exact steps_route (.cancel session) rfl Operation.noConfusion
      (fun index => c.cancel index session)
      (fun answer => (answer.map fun _ => ()).map fun _ => Reply.cancelled) (fun _ => rfl)
      fun value => ⟨_, rfl, fun _ => Reply.noConfusion⟩
  | endSession session => exact steps_endSession session
  | snapshot session =>
    exact steps_route (.snapshot session) rfl Operation.noConfusion
      (fun index => c.snapshot index session)
      (Except.map Reply.snapshot) (fun _ => rfl) fun value => ⟨_, rfl, fun _ => Reply.noConfusion⟩
  | status =>
    unfold perform workerStatus
    rcases statusOf_recorded (c := c) (List.range f.router.workers.length) f with
      ⟨views, pool, heq⟩ | ⟨before, index, rest, e, pool, hround, heq⟩
    · rw [heq]
      exact ⟨_, rfl, .surveyed⟩
    · rw [heq]
      exact ⟨_, rfl, .unsurveyed hround⟩

/-! ### Runs, seen from the router -/

theorem trace_recorded (c : Clients σ) (operations : List Operation) (f : Front (σ × Sent)) :
    ∃ sent, (f.after c.recorded operations).pool.2 = f.pool.2 ++ sent ∧
      f.router.Trace (f.forget.history c operations) sent (f.forget.after c operations).router := by
  induction operations generalizing f with
  | nil => exact ⟨[], (List.append_nil _).symm, .nil _⟩
  | cons operation rest ih =>
    obtain ⟨sent, hsent, hstep⟩ := f.steps_perform c operation
    obtain ⟨sent', hsent', hrest⟩ := ih (f.perform c.recorded operation).2
    have hforget := f.perform_forget c operation
    have hanswer : (f.perform c.recorded operation).1 = (f.forget.perform c operation).1 :=
      congrArg Prod.fst hforget
    have hfront : (f.perform c.recorded operation).2.forget = (f.forget.perform c operation).2 :=
      congrArg Prod.snd hforget
    refine ⟨sent ++ sent', ?_, ?_⟩
    · rw [after_cons, hsent', hsent, List.append_assoc]
    · rw [hfront] at hrest
      rw [hanswer] at hstep
      rw [history, after_cons]
      exact .cons hstep hrest

/-- **Every run of a front is a trace of its router.** -/
theorem trace_front (c : Clients σ) (f : Front σ) (operations : List Operation) :
    f.router.Trace (f.history c operations) (f.commandsSent c operations)
      (f.after c operations).router := by
  obtain ⟨sent, hsent, htrace⟩ := trace_recorded c operations f.recording
  rw [commandsSent, hsent]
  exact htrace

/-- **Every operation of a front is a step of its router.** -/
theorem step_perform (c : Clients σ) (f : Front σ) (operation : Operation) :
    f.router.Step operation (f.commandsSent c [operation]) (f.perform c operation).1
      (f.perform c operation).2.router := by
  have htrace := trace_front c f [operation]
  rw [after_cons, after_nil] at htrace
  generalize f.commandsSent c [operation] = sent at htrace
  cases htrace with
  | cons hstep hrest =>
    cases hrest
    rw [List.append_nil]
    exact hstep

end Front

end Turnwise
