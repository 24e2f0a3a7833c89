import Turnwise.Proofs.Sampler
import Turnwise.Proofs.Worker.Delivery

/-!
# The budget of a generation

A generation pays for each token that is drawn for it, and nothing else touches its counters. So as
long as it runs, what it has produced and what is left make up the budget it was started with, and
the sampler of its session has made one draw for each token (`Generation.Spent`, `Session.InStep`).

A generation can be ended in many places. But it ends as *length* or as *end of generation* with a
token of its own only (`Generation.Goes.done_iff`): in the first case the token was the last one the
budget allows and its text was taken, in the second case it is a token that ends the generation,
whatever the budget says. No token is drawn after that, since nobody holds the stream any more.
-/

namespace Turnwise

namespace Generation

variable {b : Backend} {g g' : Generation} {stream stream' : Stream} {token : Token} {n : Nat}
  {tokens tokens' : List Token}

/-! ### Tokens that end a generation -/

/-- What a token adds to the text, if anything, can be told and finds room. -/
def Takes (b : Backend) (g : Generation) (stream : Stream) (token : Token) : Prop :=
  match (g.decoder.push b.detokenize token).2 with
  | .error _ => False
  | .ok none => True
  | .ok (some text) => (stream.offer text).1 = .sent

theorem advance_eq_endOfGeneration_iff :
    (g.advance b token stream).1 = some (.done .endOfGeneration) ↔
      b.isEndOfGeneration token = true := by
  unfold advance
  by_cases hend : b.isEndOfGeneration token = true
  · simp [hend]
  · have hlength : (if g.spend.budget = 0 then some (StreamEvent.done .length) else none) ≠
        some (.done .endOfGeneration) := by
      split_ifs <;> simp
    rw [if_neg hend]
    refine iff_of_false ?_ hend
    rcases g.decoder.push b.detokenize token with ⟨decoder, e | _ | text⟩
    · simp
    · exact hlength
    · dsimp only
      rcases stream.offer text with ⟨_ | _ | _, stream'⟩
      · exact hlength
      · simp
      · simp

theorem advance_eq_length_iff :
    (g.advance b token stream).1 = some (.done .length) ↔
      b.isEndOfGeneration token = false ∧ g.budget ≤ 1 ∧ g.Takes b stream token := by
  have hlength : (if g.spend.budget = 0 then some (StreamEvent.done .length) else none) =
      some (.done .length) ↔ g.budget ≤ 1 := by
    have hspent : g.spend.budget = g.budget - 1 := rfl
    split_ifs with hzero
    · exact iff_of_true rfl (by omega)
    · exact iff_of_false (by simp) (by omega)
  unfold advance Takes
  by_cases hend : b.isEndOfGeneration token = true
  · simp [hend]
  · rw [if_neg hend]
    rw [Bool.not_eq_true] at hend
    rcases g.decoder.push b.detokenize token with ⟨decoder, e | _ | text⟩
    · simp
    · simpa [hend] using hlength
    · dsimp only
      rcases stream.offer text with ⟨_ | _ | _, stream'⟩
      · simpa [hend] using hlength
      · simp
      · simp

/-! ### Running generations -/

/-- The tokens that were drawn for a generation with a budget of `n`, which still runs. -/
structure Spent (b : Backend) (n : Nat) (tokens : List Token) (g : Generation) : Prop where
  budget_pos : 0 < g.budget
  balance : g.produced + g.budget = n
  produced : tokens.length = g.produced
  goesOn : ∀ token ∈ tokens, b.isEndOfGeneration token = false

theorem Spent.goes (h : g.Spent b n tokens) (hgoes : g.Goes b stream (some g') stream' tokens') :
    g'.Spent b n (tokens ++ tokens') := by
  cases hgoes with
  | passed =>
    rw [List.append_nil]
    exact ⟨h.budget_pos, h.balance, h.produced, h.goesOn⟩
  | @advanced token g' stream' hadvance =>
    have hpos := budget_pos_of_advance hadvance
    obtain ⟨decoder, hspend⟩ := g.exists_spend_of_advance b token stream
    rw [hadvance] at hspend
    obtain rfl : g' = { g.spend with decoder } := hspend
    change 0 < g.budget - 1 at hpos
    have hbalance := h.balance
    have hproduced := h.produced
    constructor
    · exact hpos
    · show g.produced + 1 + (g.budget - 1) = n
      omega
    · show (tokens ++ [token]).length = g.produced + 1
      rw [List.length_append, List.length_singleton, hproduced]
    · intro token' hmem
      rcases List.mem_append.mp hmem with hold | hnew
      · exact h.goesOn token' hold
      · obtain rfl := List.mem_singleton.mp hnew
        by_contra hend
        rw [Bool.not_eq_false] at hend
        have hlast : (g.advance b token' stream).1 = some (.done .endOfGeneration) :=
          advance_eq_endOfGeneration_iff.mpr hend
        rw [hadvance] at hlast
        cases hlast

/-- **The last action of a generation** draws at most one token, and the budget allows it. -/
theorem Spent.ends (h : g.Spent b n tokens) (hgoes : g.Goes b stream none stream' tokens') :
    (tokens ++ tokens').length ≤ n ∧
      ∀ token ∈ (tokens ++ tokens').dropLast, b.isEndOfGeneration token = false := by
  have hpos := h.budget_pos
  have hbalance := h.balance
  have hproduced := h.produced
  cases hgoes with
  | ended =>
    rw [List.append_nil]
    exact ⟨by omega, fun token hmem => h.goesOn token (List.dropLast_subset _ hmem)⟩
  | finished =>
    rw [List.length_append, List.length_singleton, List.dropLast_concat]
    exact ⟨by omega, h.goesOn⟩

/-! ### The end on the stream -/

theorem Goes.drawn_cases {g? : Option Generation} (hgoes : g.Goes b stream g? stream' tokens) :
    tokens = [] ∨ ∃ token, tokens = [token] := by
  cases hgoes with
  | passed | ended => exact .inl rfl
  | advanced | finished => exact .inr ⟨_, rfl⟩

theorem getLast?_log_close (hflow : stream.Flowing) (hopen : stream.handleOpen = true)
    (b : Backend) (g : Generation) (event : StreamEvent) :
    (g.close b event stream).log.getLast? = some event := by
  have hfinish : ∀ {s : Stream}, s.Flowing → s.handleOpen = true →
      (s.finish event).log.getLast? = some event := by
    intro s hs hs'
    rw [hs.finish_log, if_pos hs', List.getLast?_append]
    rfl
  unfold close
  split
  · exact hfinish (flowing_flushTo hflow) ((g.extends_flushTo b stream).handleOpen.trans hopen)
  · exact hfinish hflow hopen

/-- **Which ends come with a token.** If somebody listens when a token is drawn, then a generation
has an end that is no interruption just if it is the end of its last token. -/
theorem Goes.done_iff (hgoes : g.Goes b stream none stream' tokens) (hflow : stream.Flowing)
    (hopen : tokens ≠ [] → stream.handleOpen = true) {reason : FinishReason}
    (hreason : (StreamEvent.done reason).isInterruption = false) :
    stream'.log.getLast? = some (.done reason) ↔
      ∃ token, tokens = [token] ∧ (g.advance b token stream).1 = some (.done reason) := by
  cases hgoes with
  | @ended event hevent =>
    refine iff_of_false (fun hlast => ?_) ?_
    · rw [done_mem_close hflow (List.mem_of_getLast? hlast), hreason] at hevent
      cases hevent
    · rintro ⟨token, htokens, -⟩
      cases htokens
  | @finished token event g' stream' hadvance =>
    have hflow' : stream'.Flowing := by
      have hadvanced := flowing_advance b hflow g token
      rwa [hadvance] at hadvanced
    have hopen' : stream'.handleOpen = true := by
      have hextends := (g.extends_advance b token stream).handleOpen
      rw [hadvance] at hextends
      exact hextends.trans (hopen (List.cons_ne_nil _ _))
    constructor
    · intro hlast
      obtain rfl := done_mem_close hflow' (List.mem_of_getLast? hlast)
      exact ⟨token, rfl, by rw [hadvance]⟩
    · rintro ⟨token', htokens, hend⟩
      obtain rfl := List.singleton_inj.mp htokens
      rw [hadvance] at hend
      obtain rfl : event = .done reason := Option.some.inj hend
      exact getLast?_log_close hflow' hopen' b g' _

end Generation

/-! ### Draws -/

/-- Between two states of a session its sampler has made one draw for each token that its generation
has produced. -/
def Session.InStep (s s' : Session) : Prop :=
  ∀ g', s'.generation = some g' → ∃ g, s.generation = some g ∧
    s'.sampler.draws + g.produced = s.sampler.draws + g'.produced

namespace Session.InStep

variable {b : Backend} {s s' s'' : Session} {count : Nat}

theorem refl (s : Session) : s.InStep s := fun g hg => ⟨g, hg, rfl⟩

theorem trans (h : s.InStep s') (h' : s'.InStep s'') : s.InStep s'' := by
  intro g'' hg''
  obtain ⟨g', hg', hlater⟩ := h' g'' hg''
  obtain ⟨g, hg, hearlier⟩ := h g' hg'
  exact ⟨g, hg, by omega⟩

theorem of_idle (h : s'.generation = none) : s.InStep s' := by
  intro g' hg'
  rw [h] at hg'
  cases hg'

theorem of_touched (h : s.Touched s') (hactive : s.generation ≠ none) : s.InStep s' := by
  cases h with
  | same => exact refl s
  | queued tokens => exact fun g hg => ⟨g, hg, rfl⟩
  | told hidle => exact absurd hidle hactive
  | started hidle => exact absurd hidle hactive
  | cancelled =>
    obtain ⟨g, hg⟩ := Option.ne_none_iff_exists'.mp hactive
    intro g' hg'
    rw [Session.cancel, hg] at hg' ⊢
    obtain rfl := Option.some.inj hg'
    exact ⟨g, rfl, rfl⟩

theorem of_afterPrefill (h : AfterPrefill s count s') : s.InStep s' := by
  cases h with
  | written => exact fun g hg => ⟨g, hg, rfl⟩
  | lost cause => exact of_idle (s.generation_lose cause count)

theorem of_afterDecode (h : AfterDecode b s s') (hready : s.decodeReady = true) : s.InStep s' := by
  have hinput := Session.pending_of_decodeReady hready
  cases h with
  | failed => exact of_idle rfl
  | @served g hg stream logits =>
    rcases hsample : s.sampler.sample logits with e | ⟨token, sampler⟩
    · rw [Session.accept_of_error hsample]
      exact of_idle rfl
    · obtain ⟨decoder, hspend⟩ := g.exists_spend_of_advance b token stream
      rcases hadvance : g.advance b token stream with ⟨_ | event, g', stream'⟩
      · rw [hadvance] at hspend
        obtain rfl : g' = { g.spend with decoder } := hspend
        rw [Session.accept_of_none hinput hsample hadvance]
        intro g' hg'
        obtain rfl := Option.some.inj hg'
        have hdraws := Sampler.draws_of_sample hsample
        refine ⟨g, hg, ?_⟩
        show sampler.draws + g.produced = s.sampler.draws + (g.produced + 1)
        omega
      · rw [Session.accept_of_some hsample hadvance]
        exact of_idle rfl

end Session.InStep

namespace Worker

variable {b : Backend} {w w' : Worker b} {slot : Slot} {s s' : Session} {g g' : Generation}
  {stream stream' : Stream} {name : SessionId} {id : StreamId} {n draws : Nat}
  {tokens : List Token} {event : StreamEvent}

/-- **A session that generates keeps in step** through every action. -/
theorem Runs.inStep (h : w.Runs slot s g stream) (hw : w.Seated) (hsound : w.StreamsSound)
    {action : Action} (hs' : (w.act action).sessions.get? slot = some s') : s.InStep s' := by
  -- A tick is followed through its three stages, any other action is one touch.
  by_cases htick : action = .tick
  · subst htick
    rw [Worker.act, Worker.tick] at hs'
    obtain ⟨s₂, hs₂, hdecoded⟩ :=
      Turn.before_decode (t := w.beginTick.sweep.prefill) hw.decodeStage hsound.decodeStage hs'
    obtain ⟨s₁, hs₁, hprefilled⟩ := Turn.before_prefill hs₂
    obtain ⟨s₀, hs₀, hswept⟩ := Turn.before_sweep hsound.beginTick.distinct hs₁
    obtain rfl := Option.some.inj (h.session.symm.trans hs₀)
    have hsweep : s.InStep s₁ := by
      rcases hswept with rfl | rfl
      · exact .refl s₁
      · exact .of_idle rfl
    have hprefill : s₁.InStep s₂ := by
      rcases hprefilled with rfl | ⟨count, -, hafter⟩
      · exact .refl s₂
      · exact .of_afterPrefill hafter
    have hdecode : s₂.InStep s' := by
      rcases hdecoded with rfl | ⟨hready, hafter⟩
      · exact .refl s'
      · exact .of_afterDecode hafter hready
    exact (hsweep.trans hprefill).trans hdecode
  · rcases (step_act w action).touched hw htick hs' with
      ⟨s₀, hs₀, htouched⟩ | ⟨id, sampling, hvacant, -⟩
    · obtain rfl := Option.some.inj (h.session.symm.trans hs₀)
      exact .of_touched htouched (by rw [h.generation]; simp)
    · rw [h.session] at hvacant
      cases hvacant

/-! ### From the request to the end -/

/-- The tokens that some actions draw for a stream of a session. -/
def drawn (w : Worker b) (name : SessionId) (id : StreamId) (actions : List Action) : List Token :=
  sampledOn id (effectsOn name (w.trace actions))

theorem drawn_append (w : Worker b) (name : SessionId) (id : StreamId)
    (actions actions' : List Action) :
    w.drawn name id (actions ++ actions') =
      w.drawn name id actions ++ (w.run actions).drawn name id actions' := by
  rw [drawn, trace_append, effectsOn_append, sampledOn_append]
  rfl

theorem drawn_singleton (w : Worker b) (name : SessionId) (id : StreamId) (action : Action) :
    w.drawn name id [action] = sampledOn id (effectsOn name (w.effects action)) := by
  rw [drawn, trace, trace, List.append_nil]

/-- A generation runs that was started with a budget of `n` when the sampler of its session had made
so many draws; these tokens were drawn for it since. -/
structure Spending (w : Worker b) (slot : Slot) (name : SessionId) (id : StreamId) (n draws : Nat)
    (tokens : List Token) (s : Session) (g : Generation) (stream : Stream) : Prop where
  runs : w.Runs slot s g stream
  name_eq : s.id = name
  stream_eq : g.stream = id
  spent : g.Spent b n tokens
  draws_eq : s.sampler.draws = draws + g.produced

/-- One action goes on with a generation or ends it. -/
theorem Spending.act (h : w.Spending slot name id n draws tokens s g stream) (hw : w.Seated)
    (hsound : w.StreamsSound) (action : Action) :
    (∃ s' g' stream', g.Goes b stream (some g') stream' (w.drawn name id [action]) ∧
      (w.act action).Spending slot name id n draws (tokens ++ w.drawn name id [action]) s' g'
        stream') ∨
    ∃ stream', g.Goes b stream none stream' (w.drawn name id [action]) ∧
      (w.act action).streams.get? id = some stream' ∧
        ∀ slot', (w.act action).holder slot' ≠ some id := by
  obtain ⟨g?, stream', hleaves, hgoes⟩ := h.runs.act hw hsound action
  rw [h.name_eq, h.stream_eq] at hleaves hgoes
  rw [drawn_singleton]
  cases g? with
  | none => exact .inr ⟨stream', hgoes, hleaves⟩
  | some g' =>
    obtain ⟨hsame, s', hruns', hid⟩ := hleaves
    obtain ⟨g₀, hg₀, hdraws⟩ := h.runs.inStep hw hsound hruns'.session g' hruns'.generation
    obtain rfl := Option.some.inj (h.runs.generation.symm.trans hg₀)
    have hbefore := h.draws_eq
    exact .inl ⟨s', g', stream', hgoes, hruns', hid, hsame, h.spent.goes hgoes, by omega⟩

theorem StreamsSound.run (hsound : w.StreamsSound) (hw : w.Seated) (actions : List Action) :
    (w.run actions).Seated ∧ (w.run actions).StreamsSound :=
  run_induction (P := fun w : Worker b => w.Seated ∧ w.StreamsSound)
    (fun w action h => ⟨(step_act w action).seated h.1, (step_act w action).streamsSound h.1 h.2⟩)
    ⟨hw, hsound⟩ actions

/-- A generation was ended by the last of some actions, which has left this stream. -/
structure Concluded (w : Worker b) (slot : Slot) (name : SessionId) (id : StreamId) (n draws : Nat)
    (before : List Action) (action : Action) (s : Session) (g : Generation)
    (stream stream' : Stream) : Prop where
  spending : (w.run before).Spending slot name id n draws (w.drawn name id before) s g stream
  goes : g.Goes b stream none stream' ((w.run before).drawn name id [action])

/-- After some actions a generation is over: one of them has ended it. The later ones have neither
drawn for its stream nor written to it, and nobody holds it. -/
structure Past (w : Worker b) (slot : Slot) (name : SessionId) (id : StreamId) (n draws : Nat)
    (actions before : List Action) (action : Action) (rest : List Action) (s : Session)
    (g : Generation) (stream stream' : Stream) : Prop where
  split : actions = before ++ action :: rest
  concluded : w.Concluded slot name id n draws before action s g stream stream'
  drawn_eq : w.drawn name id actions = w.drawn name id (before ++ [action])
  unheld : ∀ slot', (w.run actions).holder slot' ≠ some id
  kept : ∃ later, (w.run actions).streams.get? id = some later ∧ later.log = stream'.log

/-- What is over stays as it is. -/
theorem Past.act {actions before rest : List Action} {action : Action}
    (h : w.Past slot name id n draws actions before action rest s g stream stream') (hw : w.Seated)
    (hsound : w.StreamsSound) (last : Action) :
    w.Past slot name id n draws (actions ++ [last]) before action (rest ++ [last]) s g stream
      stream' := by
  have hrun : w.run (actions ++ [last]) = (w.run actions).act last := run_append ..
  obtain ⟨later, hlater, hlog⟩ := h.kept
  obtain ⟨hfree, later', hlater', -, hsame, -⟩ :=
    (step_act _ last).unheld h.unheld (hsound.run hw actions).1 hlater
  refine ⟨?_, h.concluded, ?_, hrun ▸ hfree, later', hrun ▸ hlater', hsame.trans hlog⟩
  · rw [h.split, List.append_assoc, List.cons_append]
  · rw [drawn_append, drawn_singleton, sampledOn_effects_of_unheld h.unheld, List.append_nil,
      h.drawn_eq]

/-- **The life of a generation**: it still runs, or it is over. -/
theorem Spending.run (h : w.Spending slot name id n draws [] s g stream) (hw : w.Seated)
    (hsound : w.StreamsSound) (actions : List Action) :
    (∃ s' g' stream', (w.run actions).Spending slot name id n draws (w.drawn name id actions)
      s' g' stream') ∨
    ∃ before action rest s' g' stream₁ stream₂,
      w.Past slot name id n draws actions before action rest s' g' stream₁ stream₂ := by
  induction actions using List.reverseRecOn with
  | nil => exact .inl ⟨s, g, stream, h⟩
  | append_singleton actions last ih =>
    rcases ih with ⟨s₁, g₁, stream₁, hspending⟩ |
      ⟨before, action, rest, s₁, g₁, stream₁, stream₂, hpast⟩
    · obtain ⟨hlater, hlater'⟩ := hsound.run hw actions
      have hrun : w.run (actions ++ [last]) = (w.run actions).act last := run_append ..
      rcases hspending.act hlater hlater' last with ⟨s', g', stream', -, hspending'⟩ |
        ⟨stream', hgoes, hstream', hfree⟩
      · rw [← drawn_append, ← hrun] at hspending'
        exact .inl ⟨s', g', stream', hspending'⟩
      · exact .inr ⟨actions, last, [], s₁, g₁, stream₁, stream', rfl, ⟨hspending, hgoes⟩, rfl,
          hrun ▸ hfree, stream', hrun ▸ hstream', rfl⟩
    · exact .inr ⟨before, action, rest ++ [last], s₁, g₁, stream₁, stream₂,
        hpast.act hw hsound last⟩

/-- Somebody listens whenever a token is drawn. -/
theorem Runs.open_of_drawn (h : w.Runs slot s g stream) (hsound : w.StreamsSound)
    {action : Action} (hdrawn : sampledOn g.stream (effectsOn s.id (w.effects action)) ≠ []) :
    action = .tick ∧ stream.handleOpen = true := by
  have htick : action = .tick := by
    by_contra hother
    exact hdrawn (w.sampledOn_effects hother g.stream s.id)
  subst htick
  have hbegin := hsound.beginTick
  refine ⟨rfl, ?_⟩
  rcases hevent : Turn.sweepEvent? w.beginTick.worker.streams g with _ | event
  · obtain ⟨hs', hstream'⟩ :=
      w.beginTick.sweep_kept hbegin.distinct h.session h.generation h.stream hevent
    have hkept : w.prefillStage.Runs slot s g stream := ⟨hs', h.generation, hstream'⟩
    exact hkept.listened hsound
  -- The sweep has ended the generation, so nobody holds its stream when tokens are drawn.
  · obtain ⟨hs', -⟩ :=
      w.beginTick.sweep_ended hbegin.distinct h.session h.generation h.stream hevent
    have hfree := w.beginTick.actsOn_sweep.unheld hbegin.distinct h.holder
      (holder_eq_none_of_generation hs' rfl)
    have hnone : ∀ slot', w.decodeStage.holder slot' ≠ some g.stream := fun slot' =>
      (stepInvariant_holder_ne slot' g.stream).prefill (hfree slot')
    rw [effects, sampledOn_tickEffects, sampledOn_decodeEffects hnone] at hdrawn
    exact absurd rfl hdrawn

section Concluded

variable {before : List Action} {action : Action}
  (h : w.Concluded slot name id n draws before action s g stream stream') (hw : w.Seated)
  (hsound : w.StreamsSound)
include h hw hsound

theorem Concluded.tick_of_drawn (hdrawn : (w.run before).drawn name id [action] ≠ []) :
    action = .tick ∧ stream.handleOpen = true := by
  obtain ⟨-, hlater⟩ := hsound.run hw before
  rw [drawn_singleton, ← h.spending.name_eq, ← h.spending.stream_eq] at hdrawn
  exact h.spending.runs.open_of_drawn hlater hdrawn

/-- An end that is no interruption is the end of the last token. -/
theorem Concluded.done_iff {reason : FinishReason}
    (hreason : (StreamEvent.done reason).isInterruption = false) :
    stream'.log.getLast? = some (.done reason) ↔ ∃ token,
      (w.run before).drawn name id [action] = [token] ∧
      (g.advance b token stream).1 = some (.done reason) := by
  have hflow : stream.Flowing := h.spending.runs.flowing (hsound.run hw before).2
  exact h.goes.done_iff hflow (fun hsome => (h.tick_of_drawn hw hsound hsome).2) hreason

end Concluded

/-- A generation that starts has its whole budget. -/
theorem spending_of_accepted (hw : w.Seated) (hsound : w.StreamsSound) {request : Action}
    {capacity : Nat}
    (hrequest : request = .command (.generate name n capacity) ∨
      request = .abandoned name n capacity)
    (haccepted : (w.act request).holder slot = some w.streams.entries.length) :
    ∃ s₀, w.find? name = some (slot, s₀) ∧
      ∃ s g stream, (w.act request).Spending slot name w.streams.entries.length n s₀.sampler.draws
        [] s g stream := by
  obtain ⟨fresh, hfresh, hact⟩ : ∃ fresh, FreshStream name fresh ∧
      w.act request = w.generateOn fresh name n := by
    rcases hrequest with rfl | rfl
    · exact ⟨_, .opened capacity, rfl⟩
    · exact ⟨_, .abandoned capacity, rfl⟩
  rw [hact] at haccepted ⊢
  -- Nobody holds the new stream before, so the request was accepted, and for the session in this
  -- slot.
  have hnew : ∀ slot', w.holder slot' ≠ some w.streams.entries.length :=
    hsound.unheld_of_unopened (List.getElem?_eq_none (Nat.le_refl _))
  rcases w.generateOn_cases fresh name n with
    ⟨event, tally, -, heq⟩ | ⟨slot', s', event, -, -, -, heq⟩ |
      ⟨slot', s₀, tally, hfind, -, -, -, hpos, heq⟩
  · rw [heq] at haccepted
    exact absurd haccepted (hnew slot)
  · rw [heq] at haccepted
    have hholder := holder_modifySession slot' (w := w)
      (fun s' _ => (Session.quiet_inputError none).stream s') slot
    exact absurd (hholder.symm.trans haccepted) (hnew slot)
  · rw [heq] at haccepted ⊢
    obtain ⟨hindex, hs₀⟩ := find?_eq_some_iff.mp hfind
    let g : Generation := { budget := n, stream := (w.streams.add fresh).1 }
    have hs :
        (w.modifySession slot' fun s' => { s' with generation := some g }).sessions.get? slot =
          if slot = slot' then some { s₀ with generation := some g }
          else w.sessions.get? slot := by
      rw [modifySession, SlotArena.get?_modify]
      split_ifs with hslot
      · rw [hslot, hs₀, Option.map_some]
      · rfl
    -- The holder of the new stream is the session of the request.
    by_cases hslot : slot = slot'
    · rw [if_pos hslot] at hs
      refine ⟨s₀, by rw [hslot, hfind], _, g, fresh, ⟨hs, rfl, ?_⟩, hw.id_eq hs₀ hindex, rfl,
        ⟨hpos, Nat.zero_add n, rfl, by simp⟩, rfl⟩
      exact Streams.get?_add_self fresh
    · rw [if_neg hslot] at hs
      have hholder : w.holder slot = some w.streams.entries.length := by
        rw [← haccepted, Worker.holder, Worker.holder, ← hs]
      exact absurd hholder (hnew slot)

/-- The generation on a stream is over, and this was its end. -/
def EndedWith (w : Worker b) (id : StreamId) (event : StreamEvent) : Prop :=
  (∀ slot, w.holder slot ≠ some id) ∧
    ∃ stream, w.streams.get? id = some stream ∧ stream.log.getLast? = some event

theorem EndedWith.run (h : w.EndedWith id event) (hw : w.Seated) (hsound : w.StreamsSound)
    (actions : List Action) : (w.run actions).EndedWith id event := by
  induction actions generalizing w with
  | nil => exact h
  | cons action rest ih =>
    obtain ⟨hfree, stream, hstream, hlast⟩ := h
    have hstep := step_act w action
    obtain ⟨hfree', stream', hstream', -, hlog, -⟩ := hstep.unheld hfree hw hstream
    exact ih ⟨hfree', stream', hstream', by rw [hlog, hlast]⟩ (hstep.seated hw)
      (hstep.streamsSound hw hsound)

section Life

variable (hstart : w.Spending slot name id n draws [] s g stream) (hw : w.Seated)
  (hsound : w.StreamsSound) (after : List Action)
include hstart hw hsound

/-- Who holds the stream after some actions is still the session with the generation. -/
theorem Spending.of_held {slot' : Slot} (hheld : (w.run after).holder slot' = some id) :
    slot' = slot ∧ ∃ s' g' stream', (w.run after).Spending slot name id n draws
      (w.drawn name id after) s' g' stream' := by
  rcases hstart.run hw hsound after with ⟨s', g', stream', hspending⟩ |
    ⟨_, _, _, _, _, _, _, hpast⟩
  · have hholder := hspending.runs.holder
    rw [hspending.stream_eq] at hholder
    exact ⟨(hsound.run hw after).2.distinct slot' slot id hheld hholder, s', g', stream',
      hspending⟩
  · exact absurd hheld (hpast.unheld slot')

/-- The budget bounds what is drawn, and a token that ends a generation is the last one. -/
theorem Spending.drawn_le :
    (w.drawn name id after).length ≤ n ∧
      ∀ token ∈ (w.drawn name id after).dropLast, b.isEndOfGeneration token = false := by
  rcases hstart.run hw hsound after with ⟨s', g', stream', hspending⟩ |
    ⟨before, action, rest, s', g', stream₁, stream₂, hpast⟩
  · have hspent := hspending.spent
    have hbalance := hspent.balance
    have hproduced := hspent.produced
    exact ⟨by omega, fun token hmem => hspent.goesOn token (List.dropLast_subset _ hmem)⟩
  · rw [hpast.drawn_eq, drawn_append]
    exact hpast.concluded.spending.spent.ends hpast.concluded.goes

/-- Before an end that is no interruption the generation ran, and a tick drew its last token. -/
theorem Spending.last_of_ended {reason : FinishReason}
    (hreason : (StreamEvent.done reason).isInterruption = false)
    (hended : (w.run after).EndedWith id (.done reason)) :
    ∃ front rest s' g' stream' token, after = front ++ .tick :: rest ∧
      (w.run front).Spending slot name id n draws (w.drawn name id front) s' g' stream' ∧
      w.drawn name id (front ++ [.tick]) = w.drawn name id front ++ [token] ∧
      w.drawn name id after = w.drawn name id front ++ [token] ∧
      (g'.advance b token stream').1 = some (.done reason) := by
  obtain ⟨hfree, stream', hstream', hlast⟩ := hended
  rcases hstart.run hw hsound after with ⟨s₁, g₁, stream₁, hspending⟩ |
    ⟨before, action, rest, s₁, g₁, stream₁, stream₂, hpast⟩
  · have hholder := hspending.runs.holder
    rw [hspending.stream_eq] at hholder
    exact absurd hholder (hfree slot)
  · have hover := hpast.concluded
    obtain ⟨later, hlater, hlog⟩ := hpast.kept
    obtain rfl := Option.some.inj (hstream'.symm.trans hlater)
    rw [hlog] at hlast
    obtain ⟨token, htoken, hend⟩ := (hover.done_iff hw hsound hreason).mp hlast
    obtain ⟨rfl, -⟩ := hover.tick_of_drawn hw hsound (by simp [htoken])
    have hfront : w.drawn name id (before ++ [.tick]) = w.drawn name id before ++ [token] := by
      rw [drawn_append, htoken]
    exact ⟨before, rest, s₁, g₁, stream₁, token, hpast.split, hover.spending, hfront,
      hpast.drawn_eq.trans hfront, hend⟩

omit hstart in
/-- A tick that draws a token with which the generation ends leaves this end. -/
theorem Spending.ended_of_last {front rest : List Action} (hsplit : after = front ++ .tick :: rest)
    {s' : Session} {g' : Generation} {stream' : Stream} {token : Token}
    (hspending : (w.run front).Spending slot name id n draws (w.drawn name id front) s' g' stream')
    (hdrawn : w.drawn name id (front ++ [.tick]) = w.drawn name id front ++ [token])
    {reason : FinishReason} (hreason : (StreamEvent.done reason).isInterruption = false)
    (hend : (g'.advance b token stream').1 = some (.done reason)) :
    (w.run after).EndedWith id (.done reason) := by
  obtain ⟨hlater, hlater'⟩ := hsound.run hw front
  rw [drawn_append, List.append_cancel_left_eq] at hdrawn
  have hrun : w.run after = ((w.run front).act .tick).run rest := by
    rw [hsplit, run_append, run_cons]
  rw [hrun]
  have hstep := step_act (w.run front) .tick
  refine EndedWith.run ?_ (hstep.seated hlater) (hstep.streamsSound hlater hlater') rest
  rcases hspending.act hlater hlater' .tick with ⟨s₂, g₂, stream₂, hgoes, -⟩ |
    ⟨stream₂, hgoes, hstream₂, hfree⟩
  · rw [hdrawn] at hgoes
    cases hgoes with
    | advanced hadvance =>
      rw [hadvance] at hend
      cases hend
  · have hover : w.Concluded slot name id n draws front .tick s' g' stream' stream₂ :=
      ⟨hspending, hgoes⟩
    have hlast := (hover.done_iff hw hsound hreason).mpr ⟨token, hdrawn, hend⟩
    exact ⟨hfree, stream₂, hstream₂, hlast⟩

/-- A token that ends a generation is drawn by the tick that ends it. -/
theorem Spending.ended_of_stop {token : Token}
    (hlast : (w.drawn name id after).getLast? = some token)
    (hstops : b.isEndOfGeneration token = true) :
    (w.run after).EndedWith id (.done .endOfGeneration) := by
  have hcontinues : ∀ {front : List Token} {g' : Generation}, g'.Spent b n front →
      front.getLast? ≠ some token := by
    intro front g' hspent heq
    have htext := hspent.goesOn token (List.mem_of_getLast? heq)
    rw [hstops] at htext
    cases htext
  rcases hstart.run hw hsound after with ⟨s₁, g₁, stream₁, hspending⟩ |
    ⟨before, action, rest, s₁, g₁, stream₁, stream₂, hpast⟩
  · exact absurd hlast (hcontinues hspending.spent)
  · have hover := hpast.concluded
    rw [hpast.drawn_eq, drawn_append] at hlast
    have hend : (StreamEvent.done .endOfGeneration).isInterruption = false := rfl
    rcases hover.goes.drawn_cases with hnone | ⟨token', hsome⟩
    · rw [hnone, List.append_nil] at hlast
      exact absurd hlast (hcontinues hover.spending.spent)
    · rw [hsome, List.getLast?_concat] at hlast
      obtain rfl := Option.some.inj hlast
      have hended := (hover.done_iff hw hsound hend).mpr
        ⟨token', hsome, Generation.advance_eq_endOfGeneration_iff.mpr hstops⟩
      obtain ⟨later, hlater, hlog⟩ := hpast.kept
      exact ⟨hpast.unheld, later, hlater, hlog ▸ hended⟩

/-- A generation ends as *length* with the token that its budget ends with. -/
theorem Spending.endedWith_length_iff :
    (w.run after).EndedWith id (.done .length) ↔
      ∃ front rest s g stream token, after = front ++ .tick :: rest ∧
        (w.run front).Runs slot s g stream ∧ g.stream = id ∧
        w.drawn name id (front ++ [.tick]) = w.drawn name id front ++ [token] ∧
        (w.drawn name id front).length + 1 = n ∧ b.isEndOfGeneration token = false ∧
        g.Takes b stream token := by
  have hlength : (StreamEvent.done .length).isInterruption = false := rfl
  constructor
  · intro hended
    obtain ⟨front, rest, s, g, stream, token, hsplit, hspending, htoken, -, hadvance⟩ :=
      hstart.last_of_ended hw hsound after hlength hended
    obtain ⟨htext, hleft, htakes⟩ := Generation.advance_eq_length_iff.mp hadvance
    have hspent := hspending.spent
    have hpos := hspent.budget_pos
    have hbalance := hspent.balance
    have hproduced := hspent.produced
    exact ⟨front, rest, s, g, stream, token, hsplit, hspending.runs, hspending.stream_eq, htoken,
      by omega, htext, htakes⟩
  · rintro ⟨front, rest, s, g, stream, token, hsplit, hruns, hsame, htoken, hcount, htext, htakes⟩
    have hheld := hruns.holder
    rw [hsame] at hheld
    obtain ⟨-, s₂, g₂, stream₂, hspending⟩ := hstart.of_held hw hsound front hheld
    obtain ⟨rfl, rfl, rfl⟩ := hruns.unique hspending.runs
    have hspent := hspending.spent
    have hbalance := hspent.balance
    have hproduced := hspent.produced
    have hleft : g₂.budget ≤ 1 := by omega
    exact Spending.ended_of_last hw hsound after hsplit hspending htoken hlength
      (Generation.advance_eq_length_iff.mpr ⟨htext, hleft, htakes⟩)

/-- A generation ends as *end of generation* with a token that is one. -/
theorem Spending.endedWith_endOfGeneration_iff :
    (w.run after).EndedWith id (.done .endOfGeneration) ↔
      ∃ token, (w.drawn name id after).getLast? = some token ∧
        b.isEndOfGeneration token = true := by
  constructor
  · intro hended
    obtain ⟨front, rest, s, g, stream, token, -, -, -, hdrawn, hadvance⟩ :=
      hstart.last_of_ended hw hsound after rfl hended
    refine ⟨token, ?_, Generation.advance_eq_endOfGeneration_iff.mp hadvance⟩
    rw [hdrawn, List.getLast?_concat]
  · rintro ⟨token, hlast, hstops⟩
    exact hstart.ended_of_stop hw hsound after hlast hstops

end Life

/-- **Budgets are kept.** On any backend and after any run, let a request for `n` tokens be
accepted: a session then holds the stream that the request has opened. Whatever happens afterwards:

* as long as the generation runs, it is in the same session, what it has produced and what is left
  of the budget make `n`, and it has produced as many tokens as were drawn for it, which is by how
  much the draws of the session's sampler have grown;
* no more than `n` tokens are drawn for it, and none after one that ends a generation;
* it has ended as *length* just if a tick has drawn the `n`-th token for it, the token does not end
  a generation, and its text was taken;
* it has ended as *end of generation* just if the last token drawn for it is one that does. -/
theorem budget_run (worker : WorkerId) (context : b.Context) (config : WorkerConfig)
    (before : List Action) {request : Action} {name : SessionId} {n capacity : Nat} {slot : Slot}
    (hrequest : request = .command (.generate name n capacity) ∨
      request = .abandoned name n capacity)
    (haccepted : (((start worker context config).run before).act request).holder slot =
      some ((start worker context config).run before).streams.entries.length) :
    let w := (start worker context config).run before
    let id : StreamId := w.streams.entries.length
    let drawn := (w.act request).drawn name id
    ∃ s₀, w.find? name = some (slot, s₀) ∧ ∀ after,
      (∀ slot' s g, ((w.act request).run after).sessions.get? slot' = some s →
        s.generation = some g → g.stream = id →
        slot' = slot ∧ s.id = name ∧ g.produced + g.budget = n ∧
          (drawn after).length = g.produced ∧
          s.sampler.draws = s₀.sampler.draws + g.produced) ∧
      (drawn after).length ≤ n ∧
      (∀ token ∈ (drawn after).dropLast, b.isEndOfGeneration token = false) ∧
      (((w.act request).run after).EndedWith id (.done .length) ↔
        ∃ front rest s g stream token, after = front ++ .tick :: rest ∧
          ((w.act request).run front).Runs slot s g stream ∧ g.stream = id ∧
          drawn (front ++ [.tick]) = drawn front ++ [token] ∧ (drawn front).length + 1 = n ∧
          b.isEndOfGeneration token = false ∧ g.Takes b stream token) ∧
      (((w.act request).run after).EndedWith id (.done .endOfGeneration) ↔
        ∃ token, (drawn after).getLast? = some token ∧ b.isEndOfGeneration token = true) := by
  intro w id drawn
  have hw : w.Seated := seated_run worker context config before
  have hsound : w.StreamsSound := streamsSound_run worker context config before
  obtain ⟨s₀, hfind, s₁, g₁, stream₁, hstart⟩ := spending_of_accepted hw hsound hrequest haccepted
  have hstep := step_act w request
  have hw' : (w.act request).Seated := hstep.seated hw
  have hsound' : (w.act request).StreamsSound := hstep.streamsSound hw hsound
  refine ⟨s₀, hfind, fun after => ?_⟩
  obtain ⟨hbound, hlast⟩ := hstart.drawn_le hw' hsound' after
  refine ⟨?_, hbound, hlast, hstart.endedWith_length_iff hw' hsound' after,
    hstart.endedWith_endOfGeneration_iff hw' hsound' after⟩
  intro slot' s g hs hg hsame
  have hheld : ((w.act request).run after).holder slot' = some id :=
    holder_eq_some_iff.mpr ⟨s, g, hs, hg, hsame⟩
  obtain ⟨rfl, s₂, g₂, stream₂, hspending⟩ := hstart.of_held hw' hsound' after hheld
  obtain rfl := Option.some.inj (hs.symm.trans hspending.runs.session)
  obtain rfl := Option.some.inj (hg.symm.trans hspending.runs.generation)
  exact ⟨rfl, hspending.name_eq, hspending.spent.balance, hspending.spent.produced,
    hspending.draws_eq⟩

/-- A session with one token of input. -/
def oneInput : List Action :=
  [.command (.createSession ⟨1⟩ {}), .command (.appendInput ⟨1⟩ "x")]

/-- A request for three tokens ends as *length* with the third one, whose text is held back. -/
theorem budget_run_halves :
    let w := (halvesWorker.run oneInput).act (.command (.generate ⟨1⟩ 3 3))
    w.holder ⟨0⟩ = some (halvesWorker.run oneInput).streams.entries.length ∧
      (w.run [.tick, .tick, .tick]).EndedWith 0 (.done .length) := by
  intro w
  have haccepted : w.holder ⟨0⟩ = some (halvesWorker.run oneInput).streams.entries.length := by
    decide +kernel
  obtain ⟨s₀, -, hafter⟩ := budget_run (b := halves) ⟨0⟩ () {} oneInput (.inl rfl) haccepted
  obtain ⟨-, -, -, hlength, -⟩ := hafter [.tick, .tick, .tick]
  let g : Generation := { budget := 1, produced := 2, stream := 0 }
  have hs : (w.run [.tick, .tick]).sessions.get? ⟨0⟩ = some
      { id := ⟨1⟩, slot := ⟨0⟩, position := 2, pending := [0],
        sampler := { Sampler.ofConfig {} with draws := 2 }, generation := some g } := by
    decide +kernel
  have hstream : (w.run [.tick, .tick]).streams.get? 0 = some
      { session := ⟨1⟩, capacity := 3, log := [.chunk "é"] } := by
    decide +kernel
  have htwo : w.drawn ⟨1⟩ 0 [.tick, .tick] = [0, 0] := by decide +kernel
  have hthree : w.drawn ⟨1⟩ 0 [.tick, .tick, .tick] = [0, 0, 0] := by decide +kernel
  have htakes : (g.decoder.push halves.detokenize 0).2 = .ok none := by decide +kernel
  refine ⟨haccepted, hlength.mpr ⟨[.tick, .tick], [], _, g, _, 0, rfl, ⟨hs, rfl, hstream⟩, rfl, ?_,
    ?_, rfl, ?_⟩⟩
  · exact hthree.trans (congrArg (· ++ [0]) htwo).symm
  · exact congrArg (fun tokens => tokens.length + 1) htwo
  · rw [Generation.Takes, htakes]
    trivial

end Worker

end Turnwise
