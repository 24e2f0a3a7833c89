import Turnwise.Proofs.Router.Interleaving
import Turnwise.Proofs.Router.Pinning

/-!
# Sessions that nobody knows

A create that times out may take effect later, so the router sends the end of the session after it.
It does not wait for the outcome, and it does not insist: if the queue is full at this moment, the
end is dropped, and the session stays where it is.

This is the only way in which a worker can come to hold a session that is not pinned to it. At every
moment between operations each session belongs to one of three kinds (`Front.Accounted`): it is
pinned; or it is gone once the thread has worked off its queue (`Host.WillLack`), because wherever
it is created in the queue, its end comes later; or its end found no room. Ids that are yet to be
minted are neither live nor in the queue (`Host.Lacks`), so a create that is refused leaves nothing
behind.
-/

namespace Turnwise

/-! ### Hosts that keep going -/

namespace Host

variable {b : Backend} {h h' : Host b} {config : WorkerConfig} {id : SessionId} {command : Command}

/-- A thread that reads its queue, and that nobody has asked to stop. -/
structure Steady (config : WorkerConfig) (h : Host b) : Prop where
  serving : h.state = .serving
  running : .shutdown ∉ h.queue
  seated : h.worker.Seated
  config : h.worker.config = config

/-- The thread has taken up the first command, if there was one. -/
theorem Steady.takeUp (hh : h.Steady config) :
    (h.queue = [] ∧ h.step .takeUp = h) ∨
    ∃ first rest, h.queue = first :: rest ∧
      h.step .takeUp = { h with worker := h.worker.act (.command first), queue := rest } := by
  cases hqueue : h.queue with
  | nil =>
    refine .inl ⟨rfl, ?_⟩
    rw [Host.step, takeUp_nil hqueue]
  | cons first rest =>
    have hfirst : first ≠ .shutdown := fun heq => hh.running (hqueue ▸ heq ▸ List.mem_cons_self)
    refine .inr ⟨first, rest, rfl, ?_⟩
    rw [Host.step, takeUp_cons hqueue, apply_snd _ hfirst]
    rfl

theorem Steady.act (hh : h.Steady config) (action : Action) :
    { h with worker := h.worker.act action }.Steady config where
  serving := hh.serving
  running := hh.running
  seated := (Worker.step_act h.worker action).seated hh.seated
  config := (hh.seated.config_act action).trans hh.config

theorem Steady.apply (hh : h.Steady config) (hcommand : command ≠ .shutdown) :
    (h.apply command).2.Steady config := by
  rw [apply_snd h hcommand]
  exact hh.act (.command command)

theorem Steady.step (hh : h.Steady config) (step : ThreadStep) : (h.step step).Steady config := by
  by_cases hstep : step = .takeUp
  · subst hstep
    rcases hh.takeUp with ⟨-, heq⟩ | ⟨first, rest, hqueue, heq⟩
    · rwa [heq]
    · rw [heq]
      refine { hh.act (.command first) with running := fun hmem => hh.running ?_ }
      rw [hqueue]
      exact List.mem_cons_of_mem first hmem
  · obtain ⟨action, -, -, hact⟩ := step_eq_act (b := b) hstep
    rw [hact]
    exact hh.act action

theorem Steady.push (hh : h.Steady config) (hcommand : command ≠ .shutdown) :
    (h.push command).Steady config where
  serving := hh.serving
  running hmem := by
    rcases List.mem_append.mp hmem with hmem | hmem
    · exact hh.running hmem
    · exact hcommand (List.mem_singleton.mp hmem).symm
  seated := hh.seated
  config := hh.config

/-- A property that no step of a thread takes away. -/
def Lasting (config : WorkerConfig) (P : Host b → Prop) : Prop :=
  ∀ h step, h.Steady config → P h → P (h.step step)

theorem lasting_steady : Lasting config (Steady (b := b) config) := fun _ step hh _ => hh.step step

theorem Lasting.run {P : Host b → Prop} (hP : Lasting config P) (hh : h.Steady config) (hp : P h)
    (steps : List ThreadStep) : P (h.run steps) := by
  induction steps generalizing h with
  | nil => exact hp
  | cons step steps ih => exact ih (hh.step step) (hP h step hh hp)

/-! ### Sessions that are not there, and sessions that will not be -/

/-- The session is neither live nor about to be created. -/
structure Lacks (h : Host b) (id : SessionId) : Prop where
  live : h.worker.index.find? id = none
  queued : ∀ sampling, .createSession id sampling ∉ h.queue

/-- The session is not live once the thread has worked off its queue. -/
structure WillLack (h : Host b) (id : SessionId) : Prop where
  live : h.worker.index.find? id ≠ none → .endSession id ∈ h.queue
  queued : ∀ front sampling rest, h.queue = front ++ .createSession id sampling :: rest →
    .endSession id ∈ rest

theorem Lacks.willLack (h' : h.Lacks id) : h.WillLack id where
  live hlive := absurd h'.live hlive
  queued front sampling rest hqueue := by
    refine absurd ?_ (h'.queued sampling)
    rw [hqueue]
    exact List.mem_append_right front List.mem_cons_self

theorem find?_step (h : Host b) {step : ThreadStep} (hstep : step ≠ .takeUp) (id : SessionId) :
    (h.step step).worker.index.find? id = h.worker.index.find? id := by
  obtain ⟨action, hcommand, hshutdown, hact⟩ := step_eq_act (b := b) hstep
  rw [hact]
  exact (Worker.step_act h.worker action).find?_index (fun _ => hcommand _) (hcommand _) hshutdown

theorem lasting_lacks (id : SessionId) : Lasting config fun h : Host b => h.Lacks id := by
  intro h step hh hlacks
  by_cases hstep : step = .takeUp
  · subst hstep
    rcases hh.takeUp with ⟨-, heq⟩ | ⟨first, rest, hqueue, heq⟩
    · rwa [heq]
    · have hmem : ∀ sampling, first ≠ .createSession id sampling := fun sampling hfirst =>
        hlacks.queued sampling (hqueue ▸ hfirst ▸ List.mem_cons_self)
      rw [heq]
      refine ⟨?_, fun sampling hrest => hlacks.queued sampling ?_⟩
      · by_cases hend : first = .endSession id
        · rw [hend]
          exact h.worker.find?_handle_endSession id
        · rw [(Worker.step_act h.worker (.command first)).find?_index
            (fun sampling heq => hmem sampling (Action.command.inj heq))
            (fun heq => hend (Action.command.inj heq)) nofun]
          exact hlacks.live
      · rw [hqueue]
        exact List.mem_cons_of_mem first hrest
  · refine ⟨(h.find?_step hstep id).trans hlacks.live, ?_⟩
    rw [queue_step h hstep]
    exact hlacks.queued

theorem lasting_willLack (id : SessionId) : Lasting config fun h : Host b => h.WillLack id := by
  intro h step hh hlack
  -- Only taking up a command changes the sessions of the worker and the front of its queue.
  by_cases hstep : step = .takeUp
  · subst hstep
    rcases hh.takeUp with ⟨-, heq⟩ | ⟨first, rest, hqueue, heq⟩
    · rwa [heq]
    · rw [heq]
      refine ⟨fun hlive => ?_, fun front sampling rest' hrest => ?_⟩
      -- If the session is live afterwards, it was created by this command or was live before it.
      · by_cases hcreate : ∃ sampling, first = .createSession id sampling
        · obtain ⟨sampling, rfl⟩ := hcreate
          -- A create at the front has the end of the session behind it.
          exact hlack.queued [] sampling rest hqueue
        -- The end of a live session is in the queue, and it is not this command.
        · have hend : first ≠ .endSession id := by
            rintro rfl
            exact hlive (h.worker.find?_handle_endSession id)
          rw [(Worker.step_act h.worker (.command first)).find?_index
            (fun sampling heq => hcreate ⟨sampling, Action.command.inj heq⟩)
            (fun heq => hend (Action.command.inj heq)) nofun] at hlive
          have hmem := hlack.live hlive
          rw [hqueue] at hmem
          exact (List.mem_cons.mp hmem).resolve_left (Ne.symm hend)
      -- A create further back still has it behind it.
      · refine hlack.queued (first :: front) sampling rest' ?_
        rw [hqueue, List.cons_append]
        exact congrArg _ hrest
  · refine ⟨fun hlive => ?_, ?_⟩
    · rw [h.find?_step hstep] at hlive
      rw [queue_step h hstep]
      exact hlack.live hlive
    · rw [queue_step h hstep]
      exact hlack.queued

/-- Where a command stands in a queue that one more has joined. -/
theorem queue_push_eq {front rest : List Command} {first : Command}
    (hqueue : (h.push command).queue = front ++ first :: rest) :
    command = first ∨ ∃ rest', rest = rest' ++ [command] ∧ h.queue = front ++ first :: rest' := by
  change h.queue ++ [command] = _ at hqueue
  rcases List.eq_nil_or_concat rest with rfl | ⟨rest', last, rfl⟩
  · obtain ⟨-, hlast⟩ := List.append_inj' hqueue rfl
    exact .inl (List.singleton_inj.mp hlast)
  · rw [List.concat_eq_append, ← List.cons_append, ← List.append_assoc] at hqueue
    obtain ⟨hqueue, hlast⟩ := List.append_inj' hqueue rfl
    exact .inr ⟨rest', by rw [List.concat_eq_append, List.singleton_inj.mp hlast], hqueue⟩

theorem Lacks.push (hlacks : h.Lacks id)
    (hcommand : ∀ sampling, command ≠ .createSession id sampling) : (h.push command).Lacks id where
  live := hlacks.live
  queued sampling hmem := by
    rcases List.mem_append.mp hmem with hmem | hmem
    · exact hlacks.queued sampling hmem
    · exact hcommand sampling (List.mem_singleton.mp hmem).symm

theorem WillLack.push (hlack : h.WillLack id)
    (hcommand : ∀ sampling, command ≠ .createSession id sampling) :
    (h.push command).WillLack id where
  live hlive := List.mem_append_left _ (hlack.live hlive)
  queued front sampling rest hqueue := by
    rcases queue_push_eq hqueue with heq | ⟨rest', rfl, hbefore⟩
    · exact absurd heq (hcommand sampling)
    · exact List.mem_append_left _ (hlack.queued front sampling rest' hbefore)

/-- Once the end of a session is in the queue, nothing will be left of the session. -/
theorem willLack_push_endSession (h : Host b) (id : SessionId) :
    (h.push (.endSession id)).WillLack id where
  live _ := List.mem_append_right _ (List.mem_singleton_self _)
  queued front sampling rest hqueue := by
    rcases queue_push_eq hqueue with heq | ⟨rest', rfl, -⟩
    · cases heq
    · exact List.mem_append_right _ (List.mem_singleton_self _)

/-- A session that was ended last is not there. -/
theorem lacks_apply_endSession (hqueue : h.queue = []) (id : SessionId) :
    (h.apply (.endSession id)).2.Lacks id := by
  rw [apply_snd h Command.noConfusion]
  refine ⟨h.worker.find?_handle_endSession id, fun sampling hmem => ?_⟩
  rw [hqueue] at hmem
  cases hmem

/-- A create that is refused changes nothing. -/
theorem apply_createSession_cases (h : Host b) (id : SessionId) (sampling : Sampling) :
    (∃ slot, (h.apply (.createSession id sampling)).1 = .created slot) ∨
      ∃ e, h.apply (.createSession id sampling) = (.refused e, h) := by
  unfold apply Worker.handle
  dsimp only
  cases h.worker.createSession id sampling with
  | error e => exact .inr ⟨e, rfl⟩
  | ok created => exact .inl ⟨created.1, rfl⟩

/-! ### Waiting for an answer -/

theorem enqueue_eq (hserving : h.state = .serving) (command : Command) :
    h.enqueue command =
      if h.queue.length < h.worker.config.commandQueueSize then (.ok (), h.push command)
      else (.error (.queueFull s!"{h.id} command queue"), h) := by
  unfold enqueue
  split
  · rename_i hstate
    exact nomatch hserving.symm.trans hstate
  · rename_i hstate
    exact nomatch hserving.symm.trans hstate
  · rfl
  · rfl

/-- How waiting for an answer can go, and where it leaves the host. -/
inductive Asked (h : Host b) (command : Command) : Except Error Ack → Host b → Prop
  /-- There is no room for the command. -/
  | full {e : Error} (he : ∀ detail, e ≠ .timeout detail) : Asked h command (.error e) h
  | timedOut {detail : String} (steps : List ThreadStep) :
      Asked h command (.error (.timeout detail)) ((h.push command).run steps)
  | answered (before after : List ThreadStep) (hempty : (h.run before).queue = []) :
      Asked h command (receive ((h.run before).apply command).1)
        (((h.run before).apply command).2.run after)

/-- What lasts, and does not mind the command, is still true when the waiting is over. -/
theorem Asked.lasting {P : Host b → Prop} {answer : Except Error Ack}
    (hasked : Asked h command answer h') (hh : h.Steady config) (hcommand : command ≠ .shutdown)
    (hP : Lasting config P) (hpush : ∀ h, P h → P (h.push command)) (hp : P h) : P h' := by
  cases hasked with
  | full => exact hp
  | timedOut steps => exact hP.run (hh.push hcommand) (hpush h hp) steps
  | answered before after hempty =>
    -- To be applied is to join an empty queue and to be taken up.
    have hbefore := lasting_steady.run hh hh before
    have htaken :
        ((h.run before).push command).step .takeUp = ((h.run before).apply command).2 := by
      have hpushed : ((h.run before).push command).queue = [command] := by
        rw [push, hempty, List.nil_append]
      rw [Host.step, takeUp_cons hpushed, push, ← hempty]
    rw [← htaken]
    exact hP.run ((hbefore.push hcommand).step .takeUp)
      (hP _ .takeUp (hbefore.push hcommand) (hpush _ (hP.run hh hp before))) after

end Host

namespace Link

variable {b : Backend} {link link' : Link b} {config : WorkerConfig} {id : SessionId}
  {command : Command}

theorem asked_ask (hh : link.host.Steady config) (command : Command) :
    link.host.Asked command (link.ask command).1 (link.ask command).2.host ∧
      (link.ask command).2.refused = link.refused := by
  unfold ask
  rw [Host.enqueue_eq hh.serving]
  by_cases hroom : link.host.queue.length < link.host.worker.config.commandQueueSize
  · rw [if_pos hroom]
    dsimp only
    -- How long the router waits, and what the thread does meanwhile, is open.
    generalize link.waits.headD {} = wait
    have hhost := (link.host.push command).await_snd wait.steps link.host.queue.length
    rcases hawait : (link.host.push command).await wait.steps link.host.queue.length with
      ⟨_ | ack, host⟩
    · rw [hawait] at hhost
      obtain rfl : host = _ := hhost
      exact ⟨.timedOut wait.steps, rfl⟩
    · rw [hawait] at hhost
      obtain rfl : host = _ := hhost
      obtain ⟨before, after, hempty, rfl, heq⟩ :=
        Host.await_push hh.running (congrArg Prod.fst hawait)
      dsimp only
      -- The router may give up although the answer is there.
      split_ifs
      · exact ⟨.timedOut wait.steps, rfl⟩
      · rw [heq]
        exact ⟨.answered before after hempty, rfl⟩
  · rw [if_neg hroom]
    exact ⟨.full nofun, rfl⟩

/-- What a request leaves as it was: all that is settled about sessions but the one that it
creates. -/
structure Keeps (config : WorkerConfig) (command : Command) (link link' : Link b) : Prop where
  steady : link'.host.Steady config
  lacks : ∀ id, (∀ sampling, command ≠ .createSession id sampling) →
    link.host.Lacks id → link'.host.Lacks id
  willLack : ∀ id, (∀ sampling, command ≠ .createSession id sampling) →
    link.host.WillLack id → link'.host.WillLack id
  refused : link.refused ⊆ link'.refused

theorem Keeps.trans {link'' : Link b} {command' : Command}
    (h : link.Keeps config command link') (h' : link'.Keeps config command' link'')
    (hother : ∀ id sampling, command' ≠ .createSession id sampling) :
    link.Keeps config command link'' where
  steady := h'.steady
  lacks id hid hlacks := h'.lacks id (hother id) (h.lacks id hid hlacks)
  willLack id hid hlack := h'.willLack id (hother id) (h.willLack id hid hlack)
  refused := List.Subset.trans h.refused h'.refused

theorem keeps_ask (hh : link.host.Steady config) (hcommand : command ≠ .shutdown) :
    link.Keeps config command (link.ask command).2 := by
  obtain ⟨hasked, hrefused⟩ := asked_ask hh command
  refine ⟨?_, fun id hother => ?_, fun id hother => ?_, fun _ hmem => hrefused ▸ hmem⟩
  · exact hasked.lasting hh hcommand Host.lasting_steady (fun _ hh => hh.push hcommand) hh
  · exact hasked.lasting hh hcommand (Host.lasting_lacks id) fun _ hlacks => hlacks.push hother
  · exact hasked.lasting hh hcommand (Host.lasting_willLack id) fun _ hlack => hlack.push hother

theorem keeps_push (hh : link.host.Steady config) (hcommand : command ≠ .shutdown) :
    link.Keeps config command { link with host := link.host.push command } where
  steady := hh.push hcommand
  lacks _ hother hlacks := hlacks.push hother
  willLack _ hother hlack := hlack.push hother
  refused := List.Subset.refl _

theorem keeps_post (hh : link.host.Steady config) (hcommand : command ≠ .shutdown) :
    link.Keeps config command (link.post command).2 := by
  unfold post
  rw [Host.enqueue_eq hh.serving]
  by_cases hroom : link.host.queue.length < link.host.worker.config.commandQueueSize
  · rw [if_pos hroom]
    exact keeps_push hh hcommand
  · rw [if_neg hroom]
    exact ⟨hh, fun _ _ h => h, fun _ _ h => h, List.Subset.refl _⟩

/-- The end of the session was sent and found no room. -/
def Refused (config : WorkerConfig) (link : Link b) (id : SessionId) : Prop :=
  ∃ waiting, (.endSession id, waiting) ∈ link.refused ∧ config.commandQueueSize ≤ waiting.length

/-- The end of a session that is sent without a wait is in the queue, or there was no room. -/
theorem send_endSession (hh : link.host.Steady config) (id : SessionId) :
    link.Keeps config (.endSession id) (link.send (.endSession id)).2 ∧
      ((link.send (.endSession id)).2.host.WillLack id ∨
        (link.send (.endSession id)).2.Refused config id) := by
  unfold send
  rw [Host.enqueue_eq hh.serving]
  by_cases hroom : link.host.queue.length < link.host.worker.config.commandQueueSize
  · rw [if_pos hroom]
    exact ⟨keeps_push hh Command.noConfusion, .inl (link.host.willLack_push_endSession id)⟩
  · rw [if_neg hroom]
    rw [hh.config] at hroom
    refine ⟨⟨hh, fun _ _ h => h, fun _ _ h => h, List.subset_cons_self ..⟩, .inr ?_⟩
    exact ⟨link.host.queue, List.mem_cons_self, Nat.le_of_not_lt hroom⟩

/-- A session whose end was answered is not there. -/
theorem lacks_endSession (hh : link.host.Steady config) {index : Nat} {outcome : EndOutcome}
    (hanswer : (clients.endSession index id link).1 = .ok outcome) :
    (clients.endSession index id link).2.host.Lacks id := by
  have hasked := (asked_ask hh (.endSession id)).1
  change (link.ask (.endSession id)).1.bind _ = _ at hanswer
  show (link.ask (.endSession id)).2.host.Lacks id
  generalize (link.ask (.endSession id)).1 = answer at hanswer hasked
  generalize (link.ask (.endSession id)).2.host = host at hasked
  cases hasked with
  | full => cases hanswer
  | timedOut => cases hanswer
  | answered before after hempty =>
    have hbefore := Host.lasting_steady.run hh hh before
    exact (Host.lasting_lacks id).run (hbefore.apply Command.noConfusion)
      (Host.lacks_apply_endSession hempty id) after

/-- A session that was not created is as little there as before, unless the wait for the answer
came to nothing. -/
theorem lacks_createSession (hh : link.host.Steady config) {index : Nat}
    {sampling : Sampling} {e : Error} (he : ∀ detail, e ≠ .timeout detail)
    (hanswer : (clients.createSession index id sampling link).1 = .error e)
    (hlacks : link.host.Lacks id) :
    (clients.createSession index id sampling link).2.host.Lacks id := by
  have hasked := (asked_ask hh (.createSession id sampling)).1
  change (link.ask (.createSession id sampling)).1.bind _ = _ at hanswer
  show (link.ask (.createSession id sampling)).2.host.Lacks id
  generalize (link.ask (.createSession id sampling)).1 = answer at hanswer hasked
  generalize (link.ask (.createSession id sampling)).2.host = host at hasked
  cases hasked with
  | full => exact hlacks
  | timedOut => exact absurd (Except.error.inj hanswer).symm (he _)
  | answered before after hempty =>
    have hbefore := Host.lasting_steady.run hh hh before
    rcases (link.host.run before).apply_createSession_cases id sampling with
      ⟨slot, hslot⟩ | ⟨e', hrefused⟩
    · rw [hslot] at hanswer
      cases hanswer
    · rw [hrefused]
      exact (Host.lasting_lacks id).run hbefore ((Host.lasting_lacks id).run hh hlacks before) after

end Link

/-! ### Between operations -/

namespace Front

variable {b : Backend} {f : Front (Link b)} {config : Config}

/-- Every session is pinned, or is gone once the queue is worked off, or was given up and could not
be ended for want of room. An id that was not minted yet is not in use. -/
structure Accounted (config : Config) (f : Front (Link b)) : Prop where
  steady : f.pool.host.Steady config.worker
  fresh : ∀ id : SessionId, f.router.nextSession ≤ id.number → f.pool.host.Lacks id
  covered : ∀ id, f.router.pinned? id ≠ none ∨ f.pool.host.WillLack id ∨
    id ∈ f.router.abandoned ∧ f.pool.Refused config.worker id

namespace Accounted

open Router

theorem linked (context : b.Context) (config : Config) :
    (Front.linked context config).Accounted config := by
  have hlacks : ∀ id, (Front.linked context config).pool.host.Lacks id := fun _ => ⟨rfl, nofun⟩
  refine ⟨⟨rfl, nofun, Worker.seated_start .., rfl⟩, fun id _ => hlacks id, fun id => ?_⟩
  exact .inr (.inl (hlacks id).willLack)

/-- A session that was covered before a request is covered after it, if it keeps its pin. -/
theorem covered_of_keeps {r' : Router} {link' : Link b} {command : Command} {id : SessionId}
    (hf : f.Accounted config) (hkeeps : f.pool.Keeps config.worker command link')
    (hother : ∀ sampling, command ≠ .createSession id sampling)
    (hpin : r'.pinned? id = f.router.pinned? id) (hgiven : f.router.abandoned ⊆ r'.abandoned) :
    r'.pinned? id ≠ none ∨ link'.host.WillLack id ∨
      id ∈ r'.abandoned ∧ link'.Refused config.worker id := by
  rw [hpin]
  refine (hf.covered id).imp_right (Or.imp (hkeeps.willLack id hother) (And.imp (hgiven ·) ?_))
  exact fun ⟨waiting, hmem, hfull⟩ => ⟨waiting, hkeeps.refused hmem, hfull⟩

/-- A request that creates nothing, and no change of pins. -/
theorem of_keeps {r' : Router} {link' : Link b} {command : Command} (hf : f.Accounted config)
    (hsame : SameSessions f.router r') (hkeeps : f.pool.Keeps config.worker command link')
    (hother : ∀ id sampling, command ≠ .createSession id sampling) :
    Accounted config { router := r', pool := link' } where
  steady := hkeeps.steady
  fresh id hid := hkeeps.lacks id (hother id) (hf.fresh id (hsame.nextSession ▸ hid))
  covered id := hf.covered_of_keeps hkeeps (hother id) (hsame.pinned? id)
    fun _ hmem => hsame.abandoned ▸ hmem

theorem of_same {r' : Router} (hf : f.Accounted config) (hsame : SameSessions f.router r') :
    Accounted config { f with router := r' } :=
  ⟨hf.steady, fun id hid => hf.fresh id (hsame.nextSession ▸ hid),
    fun id => hsame.pinned? id ▸ hsame.abandoned ▸ hf.covered id⟩

theorem call {α : Type} {command : Command} {index : Nat}
    {request : Link b → Except Error α × Link b} (hf : f.Accounted config)
    (hkeeps : f.pool.Keeps config.worker command (request f.pool).2)
    (hother : ∀ id sampling, command ≠ .createSession id sampling) :
    (f.call index request).2.Accounted config := by
  unfold Front.call
  rcases hrequest : request f.pool with ⟨e | value, link'⟩ <;> rw [hrequest] at hkeeps
  · exact hf.of_keeps (sameSessions_markFailed f.router index e) hkeeps hother
  · exact hf.of_keeps (.refl f.router) hkeeps hother

theorem route {α : Type} (hf : f.Accounted config) (session : SessionId) {command : Command}
    (request : Nat → Link b → Except Error α × Link b)
    (hkeeps : ∀ index, f.pool.Keeps config.worker command (request index f.pool).2)
    (hother : ∀ id sampling, command ≠ .createSession id sampling) :
    (f.route session request).2.Accounted config := by
  unfold Front.route
  cases f.router.pinned? session with
  | none => exact hf.of_same (sameSessions_countUnknown f.router)
  | some index => exact hf.call (hkeeps index) hother

theorem endSession (hf : f.Accounted config) (session : SessionId) :
    (f.endSession Link.clients session).2.Accounted config := by
  unfold Front.endSession
  cases hpin : f.router.pinned? session with
  | none =>
    dsimp only
    split
    · exact hf
    · exact hf.of_same (sameSessions_countUnknown f.router)
  | some index =>
    -- A pinned session is covered by its pin until it is ended, and by its absence from then on.
    have hkeeps : f.pool.Keeps config.worker (.endSession session)
        (Link.clients.endSession index session f.pool).2 :=
      Link.keeps_ask hf.steady Command.noConfusion
    have hother : ∀ id sampling, Command.endSession session ≠ .createSession id sampling :=
      fun _ _ => Command.noConfusion
    have hgone : ∀ outcome, (Link.clients.endSession index session f.pool).1 = .ok outcome →
        (Link.clients.endSession index session f.pool).2.host.Lacks session :=
      fun _ hanswer => Link.lacks_endSession hf.steady hanswer
    unfold Front.call
    dsimp only
    rcases hanswer : Link.clients.endSession index session f.pool with ⟨e | outcome, link'⟩ <;>
      rw [hanswer] at hkeeps hgone
    · exact hf.of_keeps (sameSessions_markFailed f.router index e) hkeeps hother
    · refine ⟨hkeeps.steady, fun id hid => hkeeps.lacks id (hother id) (hf.fresh id hid), ?_⟩
      intro id
      -- The session that was ended is gone from the worker, and the others have kept their pins.
      by_cases hid : id = session
      · exact .inr (.inl (hid ▸ (hgone outcome rfl).willLack))
      · refine hf.covered_of_keeps hkeeps (hother id) ?_ (List.Subset.refl _)
        rw [pinned?_unpin, if_neg hid]

/-- A create leaves all other sessions as they were, so that it is enough to look at its own. -/
theorem of_create {r' r'' : Router} {link' : Link b} {sampling : Sampling}
    (hf : f.Accounted config) (hsame : SameSessions f.router r')
    (hkeeps : f.pool.Keeps config.worker (.createSession ⟨r'.nextSession⟩ sampling) link')
    (hpins : ∀ id, id ≠ ⟨r'.nextSession⟩ → r''.pinned? id = r'.pinned? id)
    (hgiven : r'.abandoned ⊆ r''.abandoned)
    (hnext : r''.nextSession = r'.nextSession + 1 ∨
      r''.nextSession = r'.nextSession ∧ link'.host.Lacks ⟨r'.nextSession⟩)
    (hnew : r''.pinned? ⟨r'.nextSession⟩ ≠ none ∨ link'.host.WillLack ⟨r'.nextSession⟩ ∨
      ⟨r'.nextSession⟩ ∈ r''.abandoned ∧ link'.Refused config.worker ⟨r'.nextSession⟩) :
    Accounted config { router := r'', pool := link' } := by
  have hother : ∀ id, id ≠ ⟨r'.nextSession⟩ → ∀ sampling',
      Command.createSession ⟨r'.nextSession⟩ sampling ≠ .createSession id sampling' := by
    rintro id hid sampling' heq
    exact hid (Command.createSession.inj heq).1.symm
  have hfresh : ∀ id, id ≠ ⟨r'.nextSession⟩ → r'.nextSession ≤ id.number → link'.host.Lacks id :=
    fun id hid hle =>
      hkeeps.lacks id (hother id hid) (hf.fresh id (hsame.nextSession ▸ hle))
  refine ⟨hkeeps.steady, fun id hle => ?_, fun id => ?_⟩
  · change r''.nextSession ≤ id.number at hle
    by_cases hid : id = ⟨r'.nextSession⟩
    · rcases hnext with hnext | ⟨-, hlacks⟩
      · rw [hid, hnext] at hle
        exact absurd hle (Nat.not_succ_le_self _)
      · exact hid ▸ hlacks
    · exact hfresh id hid (by omega)
  · by_cases hid : id = ⟨r'.nextSession⟩
    · exact hid ▸ hnew
    · exact hf.covered_of_keeps hkeeps (hother id hid)
        ((hpins id hid).trans (hsame.pinned? id)) fun _ hmem => hgiven (hsame.abandoned ▸ hmem)

theorem createSession (hf : f.Accounted config) (sampling : Sampling) :
    (f.createSession Link.clients sampling).2.Accounted config := by
  unfold Front.createSession
  rcases hselect : f.router.selectWorker with ⟨e | index, r'⟩
  · exact hf.of_same (sameSessions_selectWorker hselect)
  · have hsame := sameSessions_selectWorker hselect
    -- The id is new, so the worker has nothing under it before the create is sent.
    have hkeeps : f.pool.Keeps config.worker (.createSession ⟨r'.nextSession⟩ sampling)
        (Link.clients.createSession index ⟨r'.nextSession⟩ sampling f.pool).2 :=
      Link.keeps_ask hf.steady Command.noConfusion
    have hlacks : ∀ e, (∀ detail, e ≠ .timeout detail) →
        (Link.clients.createSession index ⟨r'.nextSession⟩ sampling f.pool).1 = .error e →
        (Link.clients.createSession index ⟨r'.nextSession⟩ sampling f.pool).2.host.Lacks
          ⟨r'.nextSession⟩ := fun e he hanswer =>
      Link.lacks_createSession hf.steady he hanswer
        (hf.fresh ⟨r'.nextSession⟩ (Nat.le_of_eq hsame.nextSession.symm))
    dsimp only
    unfold Front.call
    dsimp only
    rcases hanswer : Link.clients.createSession index ⟨r'.nextSession⟩ sampling f.pool with
      ⟨e | slot, link'⟩ <;> rw [hanswer] at hkeeps hlacks
    -- A create that fails leaves the id unused, unless nobody knows what has become of it.
    · have hfailed := sameSessions_markFailed r' index e
      by_cases htimeout : ∃ detail, e = .timeout detail
      -- After a timeout the end of the session is sent behind the create, or the queue has no room.
      · obtain ⟨detail, rfl⟩ := htimeout
        obtain ⟨hend, hgone⟩ := Link.send_endSession hkeeps.steady ⟨r'.nextSession⟩
        have hkeeps' := hkeeps.trans hend fun _ _ => Command.noConfusion
        refine hf.of_create hsame hkeeps' (fun id _ => hfailed.pinned? id) (fun id hmem => ?_)
          (.inl (congrArg Nat.succ hfailed.nextSession)) (.inr (hgone.imp_right (.intro ?_)))
        · exact List.mem_cons_of_mem _ (hfailed.abandoned ▸ hmem)
        · rw [← hfailed.nextSession]
          exact List.mem_cons_self
      -- Any other answer says that the worker has not created the session.
      · have he : ∀ detail, e ≠ .timeout detail := fun detail heq => htimeout ⟨detail, heq⟩
        have hgone := hlacks e he rfl
        have hrefused : Accounted config { router := r'.markFailed index e, pool := link' } :=
          hf.of_create hsame hkeeps (fun id _ => hfailed.pinned? id)
            (fun _ hmem => hfailed.abandoned ▸ hmem) (.inr ⟨hfailed.nextSession, hgone⟩)
            (.inr (.inl hgone.willLack))
        cases e with
        | timeout detail => exact absurd rfl (he detail)
        | _ => exact hrefused
    -- The worker has answered with a slot, and the id is pinned.
    · refine hf.of_create hsame hkeeps (fun id hid => ?_) (List.Subset.refl _) (.inl rfl) (.inl ?_)
      · rw [pinned?_pin, if_neg hid]
      · rw [pinned?_pin, if_pos rfl]
        exact nofun

theorem statusOf (indices : List Nat) (hf : f.Accounted config) :
    (Front.statusOf Link.clients indices f).2.Accounted config := by
  induction indices generalizing f with
  | nil => exact hf
  | cons index rest ih =>
    have hcall : (f.call index (Link.clients.status index)).2.Accounted config :=
      hf.call (Link.keeps_ask hf.steady Command.noConfusion) fun _ _ => Command.noConfusion
    unfold Front.statusOf
    rcases hanswer : f.call index (Link.clients.status index) with ⟨e | status, f'⟩ <;>
      rw [hanswer] at hcall
    · exact hcall
    · exact ih hcall

theorem perform (hf : f.Accounted config) (operation : Operation) :
    (f.perform Link.clients operation).2.Accounted config := by
  -- No operation asks a worker to stop, so each keeps what is known of its queue.
  have hask : ∀ command, command ≠ .shutdown →
      f.pool.Keeps config.worker command (f.pool.ask command).2 :=
    fun _ => Link.keeps_ask hf.steady
  have hpost : ∀ command, command ≠ .shutdown →
      f.pool.Keeps config.worker command (f.pool.post command).2 :=
    fun _ => Link.keeps_post hf.steady
  cases operation with
  | create sampling => exact hf.createSession sampling
  | append session text =>
    exact hf.route session (fun index => Link.clients.appendInput index session text)
      (fun _ => hask (.appendInput session text) Command.noConfusion) fun _ _ => Command.noConfusion
  | generate session budget =>
    exact hf.route session
      (fun index link => Prod.map (Except.map fun stream => (index, stream)) id
        (Link.clients.generate index session budget f.router.streamBufferSize link))
      (fun _ => hpost (.generate session budget f.router.streamBufferSize) Command.noConfusion)
      fun _ _ => Command.noConfusion
  | cancel session =>
    exact hf.route session (fun index => Link.clients.cancel index session)
      (fun _ => hask (.cancel session) Command.noConfusion) fun _ _ => Command.noConfusion
  | endSession session => exact hf.endSession session
  | snapshot session =>
    exact hf.route session (fun index => Link.clients.snapshot index session)
      (fun _ => hask (.snapshot session) Command.noConfusion) fun _ _ => Command.noConfusion
  | status => exact hf.statusOf _

theorem move (hf : f.Accounted config) (m : Move) : (f.move m).Accounted config := by
  cases m with
  | operation operation waits =>
    have hf' : Accounted config { f with pool := { f.pool with waits } } :=
      ⟨hf.steady, hf.fresh, hf.covered⟩
    exact hf'.perform operation
  | thread step =>
    refine ⟨hf.steady.step step, fun id hid => ?_, fun id => ?_⟩
    · exact Host.lasting_lacks id f.pool.host step hf.steady (hf.fresh id hid)
    · exact (hf.covered id).imp_right
        (Or.imp_left (Host.lasting_willLack id f.pool.host step hf.steady))

theorem play (hf : f.Accounted config) (moves : List Move) : (f.play moves).Accounted config := by
  induction moves generalizing f with
  | nil => exact hf
  | cons m rest ih => exact ih (hf.move m)

end Accounted

theorem pinsInRange_play (moves : List Move) (hone : f.router.workers.length = 1)
    (hpins : f.router.PinsInRange) :
    (f.play moves).router.workers.length = 1 ∧ (f.play moves).router.PinsInRange := by
  induction moves generalizing f with
  | nil => exact ⟨hone, hpins⟩
  | cons m rest ih =>
    cases m with
    | operation operation waits =>
      have heffect :=
        (step_perform Link.clients { f with pool := { f.pool with waits } } operation).effect
      exact ih (heffect.length_workers.trans hone) (heffect.pinsInRange hpins)
    | thread step => exact ih hone hpins

/-- **A worker holds no session that nobody knows, unless there was no room for its end.** At every
moment between operations, a session that is live is pinned to the worker, or its end is in the
queue, or a create timed out and the end that was sent after it found the queue full. -/
theorem live_play (context : b.Context) (config : Config) (moves : List Move) :
    let f := (Front.linked context config).play moves
    ∀ id, (f.pool.host.worker.find? id).isSome →
      f.router.pinned? id = some 0 ∨ .endSession id ∈ f.pool.host.queue ∨
        id ∈ f.router.abandoned ∧
          ∃ waiting, (.endSession id, waiting) ∈ f.pool.refused ∧
            config.worker.commandQueueSize ≤ waiting.length := by
  intro f id hlive
  have hf : f.Accounted config := (Accounted.linked context config).play moves
  rcases hf.covered id with hpin | hlack | hrefused
  · obtain ⟨index, hpin⟩ := Option.ne_none_iff_exists'.mp hpin
    obtain ⟨hone, hrange⟩ := pinsInRange_play (f := Front.linked context config) moves rfl nofun
    have hindex : index < f.router.workers.length := hrange id index hpin
    rw [show f.router.workers.length = 1 from hone] at hindex
    exact .inl (Nat.lt_one_iff.mp hindex ▸ hpin)
  · refine .inr (.inl (hlack.live fun hnone => ?_))
    rw [Worker.find?, hnone] at hlive
    cases hlive
  · exact .inr (.inr hrefused)

/-- A create that is answered in time, and one that is not, whose session is not live yet. -/
theorem live_play_created :
    let f := (Front.linked (b := ByteModel.backend {}) ⟨[[], []]⟩ {}).play
      [.operation (.create {}) [{ steps := [.takeUp], givesUp := false }],
        .operation (.create {}) []]
    (f.pool.host.worker.find? ⟨1⟩).isSome ∧ f.pool.host.queue.length = 2 ∧
      (f.router.pinned? ⟨1⟩ = some 0 ∨ .endSession ⟨1⟩ ∈ f.pool.host.queue ∨
        ⟨1⟩ ∈ f.router.abandoned ∧
          ∃ waiting, (.endSession ⟨1⟩, waiting) ∈ f.pool.refused ∧
            ({} : Config).worker.commandQueueSize ≤ waiting.length) := by
  have hlive : (((Front.linked (b := ByteModel.backend {}) ⟨[[], []]⟩ {}).play
      [.operation (.create {}) [{ steps := [.takeUp], givesUp := false }],
        .operation (.create {}) []]).pool.host.worker.find? ⟨1⟩).isSome := by
    decide +kernel
  exact ⟨hlive, by decide +kernel, live_play _ {} _ ⟨1⟩ hlive⟩

/-- A queue with room for one command: the create that timed out is still in it when the end of the
session is sent, and is taken up afterwards. The queue is empty then, and the session is live, but
its id was set aside. -/
theorem orphan_of_full_queue :
    let config : Config := { worker := { commandQueueSize := 1 } }
    let f := (Front.linked (b := ByteModel.backend {}) ⟨[[]]⟩ config).play
      [.operation (.create {}) [], .thread .takeUp]
    f.pool.host.queue = [] ∧ (f.pool.host.worker.find? ⟨1⟩).isSome ∧
      f.router.pinned? ⟨1⟩ = none ∧ ⟨1⟩ ∈ f.router.abandoned := by
  decide +kernel

end Front

end Turnwise
