import Turnwise.Proofs.Worker.Acceptance
import Turnwise.Proofs.Worker.Sequential
import Turnwise.Proofs.Worker.Treatment

/-!
# Batched decoding refines sequential decoding

A worker decodes many conversations at once. It writes their input in pieces, skips turns, and
gathers entries of different sessions in one batch, and yet a generation produces what sequential
decoding of its own conversation would produce. What carries the proof is that at any time the
tokens sampled so far, followed by what sequential decoding would still sample from here, are the
tokens of the reference, and that the same is true of the events (`OnTrack`). Writing input does not
change what would still be sampled, because the row and the queue together stay as they are; a turn
of decoding moves one token from the one part to the other (`OnTrack.turn`).

Until the generation is over, nobody may interfere with its session or its stream
(`Worker.Undisturbed`). Whatever else happens does not matter.
-/

namespace Turnwise

open ByteModel (endOfGeneration logitsFor)

/-- A session that decodes is on its way to the whole of its tokens and events. -/
structure OnTrack (params : ByteModel.Params) (whole : List Token × List StreamEvent)
    (sampled : List Token) (s : Session) (row : List Token) (g : Generation) (stream : Stream) :
    Prop where
  generation : s.generation = some g
  kept : g.cancelRequested = false
  listened : stream.handleOpen = true
  held : ∀ token ∈ g.decoder.held, token < ByteModel.vocabularySize
  tokens : sampled ++ (sequential params g.budget (row ++ s.pending) s.sampler).1 = whole.1
  events : stream.log ++ transcript (ByteModel.backend params) g.decoder
    (sequential params g.budget (row ++ s.pending) s.sampler).1
    (sequential params g.budget (row ++ s.pending) s.sampler).2 = whole.2

/-- Where a session and its stream are after a step: further on their way, or at the end of it. -/
def Onward (params : ByteModel.Params) (whole : List Token × List StreamEvent)
    (sampled : List Token) (id : StreamId) (row : List Token) (next : Session × Stream) : Prop :=
  (∃ g, g.stream = id ∧ OnTrack params whole sampled next.1 row g next.2) ∨
    next.2.log = whole.2 ∧ sampled = whole.1

namespace OnTrack

variable {params : ByteModel.Params} {whole : List Token × List StreamEvent}
  {sampled : List Token} {s s' : Session} {row row' : List Token} {g : Generation}
  {stream : Stream}

/-- It does not matter how much of the history is written already. -/
theorem congr (h : OnTrack params whole sampled s row g stream)
    (hgeneration : s'.generation = s.generation) (hsampler : s'.sampler = s.sampler)
    (hhistory : row' ++ s'.pending = row ++ s.pending) :
    OnTrack params whole sampled s' row' g stream :=
  ⟨hgeneration.trans h.generation, h.kept, h.listened, h.held, by rw [hhistory, hsampler, h.tokens],
    by rw [hhistory, hsampler, h.events]⟩

/-- The reference before a turn: what is on its way when a session with this input decodes. -/
theorem reference_eq (h : OnTrack params whole sampled s row g stream)
    (hready : s.decodeReady = true) :
    ∃ budget, g.budget = budget + 1 ∧
      sampled ++ (sequential params (budget + 1) (row ++ [s.input]) s.sampler).1 = whole.1 ∧
      stream.log ++ transcript (ByteModel.backend params) g.decoder
        (sequential params (budget + 1) (row ++ [s.input]) s.sampler).1
        (sequential params (budget + 1) (row ++ [s.input]) s.sampler).2 = whole.2 := by
  obtain ⟨g', hg', hbudget⟩ := Session.active_of_decodeReady hready
  obtain rfl := Option.some.inj (h.generation.symm.trans hg')
  have hsucc : g.budget = (g.budget - 1) + 1 := by omega
  have htokens := h.tokens
  have hevents := h.events
  rw [Session.pending_of_decodeReady hready, hsucc] at htokens hevents
  exact ⟨g.budget - 1, hsucc, htokens, hevents⟩

/-- A sampler that fails ends the generation and the reference with the same error. -/
theorem turn_of_error (h : OnTrack params whole sampled s row g stream)
    (hready : s.decodeReady = true) (hflow : stream.Flowing) (hroom : 2 ≤ stream.room) {e : Error}
    (hsample : s.sampler.sample (logitsFor params (row ++ [s.input])) = .error e) :
    (s.accept (ByteModel.backend params) g stream (logitsFor params (row ++ [s.input]))).2.log =
        whole.2 ∧ sampled = whole.1 := by
  obtain ⟨budget, -, htokens, hevents⟩ := h.reference_eq hready
  rw [sequential_of_error hsample] at htokens hevents
  constructor
  · rw [Session.accept_of_error hsample, Generation.log_close hflow h.listened (Or.inl hroom)]
    exact hevents
  · rw [← htokens, List.append_nil]

/-- The token that ends a generation also ends the reference. -/
theorem turn_of_end (h : OnTrack params whole sampled s row g stream)
    (hready : s.decodeReady = true) (hflow : stream.Flowing) (hroom : 2 ≤ stream.room)
    {sampler : Sampler}
    (hsample : s.sampler.sample (logitsFor params (row ++ [s.input])) =
      .ok (endOfGeneration, sampler)) :
    (s.accept (ByteModel.backend params) g stream (logitsFor params (row ++ [s.input]))).2.log =
        whole.2 ∧ sampled ++ [endOfGeneration] = whole.1 := by
  obtain ⟨budget, -, htokens, hevents⟩ := h.reference_eq hready
  rw [sequential_of_end hsample] at htokens hevents
  have hadvance : g.advance (ByteModel.backend params) endOfGeneration stream =
      (some (.done .endOfGeneration), g.spend, stream) := Generation.advance_of_end rfl stream
  refine ⟨?_, htokens⟩
  rw [Session.accept_of_some hsample hadvance,
    Generation.log_close hflow h.listened (Or.inl hroom)]
  exact hevents

/-- Any other token is a token of the reference, and its text is what comes next on the stream. The
generation goes on from there, unless this was the last token of the budget. -/
theorem turn_of_token (h : OnTrack params whole sampled s row g stream)
    (hready : s.decodeReady = true) (hflow : stream.Flowing) (hroom : 2 ≤ stream.room)
    {token : Token} {sampler : Sampler}
    (hsample : s.sampler.sample (logitsFor params (row ++ [s.input])) = .ok (token, sampler))
    (htoken : token ≠ endOfGeneration) :
    Onward params whole (sampled ++ [token]) g.stream (row ++ [s.input])
      (s.accept (ByteModel.backend params) g stream (logitsFor params (row ++ [s.input]))) := by
  obtain ⟨budget, hsucc, htokens, hevents⟩ := h.reference_eq hready
  have hpending := Session.pending_of_decodeReady hready
  have hend : (ByteModel.backend params).isEndOfGeneration token = false :=
    beq_eq_false_iff_ne.mpr htoken
  -- The tokens that the decoder holds are tokens of the vocabulary, so it does not fail.
  have hvalid : ∀ token' ∈ g.decoder.held ++ [token], token' < ByteModel.vocabularySize := by
    intro token' htoken'
    rcases List.mem_append.mp htoken' with hheld | hnew
    · exact h.held token' hheld
    · have hlt := Sampler.lt_length_of_sample hsample
      rw [ByteModel.length_logitsFor] at hlt
      rwa [List.mem_singleton.mp hnew]
  obtain ⟨text, htext⟩ := ByteModel.detokenize_eq_ok hvalid
  obtain ⟨stream', hadvance, hflow', hopen', hlog', hroom'⟩ :=
    Generation.advance_of_room hend (DeltaDecoder.push_ne_error htext) hflow h.listened hroom
  have hspent : g.spend.budget = budget := by
    show g.budget - 1 = budget
    omega
  rw [hspent] at hadvance
  -- The reference gives up its first token, and the stream has its text already.
  rw [sequential_of_token hsample htoken] at htokens hevents
  rw [List.append_cons] at htokens
  rw [transcript, if_neg (by rw [hend]; exact Bool.false_ne_true), ← List.append_assoc,
    ← hlog'] at hevents
  cases budget with
  | zero =>
    right
    rw [sequential, List.append_nil] at htokens
    refine ⟨?_, htokens⟩
    rw [Session.accept_of_some hsample hadvance, Generation.log_close hflow' hopen' hroom']
    exact hevents
  | succ budget =>
    left
    rw [← hspent] at htokens hevents
    rw [Session.accept_of_none hpending hsample hadvance]
    exact ⟨{ g.spend with decoder := _ }, rfl, rfl, h.kept, hopen', fun token' htoken' =>
      hvalid token' (g.decoder.held_push _ token htoken'), htokens, hevents⟩

/-- **A turn of decoding is one step of sequential decoding.** -/
theorem turn (h : OnTrack params whole sampled s row g stream) (hready : s.decodeReady = true)
    (hflow : stream.Flowing) (hroom : 2 ≤ stream.room) :
    let logits := logitsFor params (row ++ [s.input])
    Onward params whole (sampled ++ sampledOn g.stream (s.turnEffects logits)) g.stream
      (row ++ [s.input]) (s.accept (ByteModel.backend params) g stream logits) := by
  intro logits
  rcases hsample : s.sampler.sample logits with e | ⟨token, sampler⟩
  · rw [Session.sampledOn_turnEffects_of_error hsample, List.append_nil]
    exact Or.inr (h.turn_of_error hready hflow hroom hsample)
  · rw [Session.sampledOn_turnEffects_of_ok h.generation hsample]
    by_cases htoken : token = endOfGeneration
    · subst htoken
      exact Or.inr (h.turn_of_end hready hflow hroom hsample)
    · exact h.turn_of_token hready hflow hroom hsample htoken

end OnTrack

namespace Worker

variable {params : ByteModel.Params} {w w' : Worker (ByteModel.backend params)} {slot : Slot}
  {s : Session} {g : Generation} {stream : Stream} {whole : List Token × List StreamEvent}
  {sampled : List Token}

/-! ### A tick -/

/-- The sweep passes over a generation that nobody has cancelled and somebody listens to. -/
theorem sweepEvent?_of_onTrack {row : List Token} (h : OnTrack params whole sampled s row g stream)
    (hstream : w.streams.get? g.stream = some stream) :
    s.generation.bind (Turn.sweepEvent? w.streams) = none := by
  have hlistened : w.streams.isClosed g.stream = false := by
    rw [Streams.isClosed, hstream]
    exact congrArg (!·) h.listened
  rw [h.generation, Option.bind_some, Turn.sweepEvent?, h.kept, hlistened]
  rfl

/-- **A tick keeps a session on its way, or ends its generation with the whole.** Without failing
calls the sweep and the prefill stage take nothing away, and the decode stage gives at most one
turn. -/
theorem onTrack_tick (hw : w.Accepting) (hfail : params.failOn = none)
    (hs : w.sessions.get? slot = some s) (hstream : w.streams.get? g.stream = some stream)
    (h : OnTrack params whole sampled s (w.row slot) g stream) (hroom : 2 ≤ stream.room) :
    let sampled' := sampled ++ sampledOn g.stream (effectsOn s.id w.tickEffects)
    ∃ s' stream', w.tick.worker.sessions.get? slot = some s' ∧ s'.id = s.id ∧
      w.tick.worker.streams.get? g.stream = some stream' ∧
      Onward params whole sampled' g.stream (w.tick.worker.row slot) (s', stream') := by
  intro sampled'
  have hsweep := hw.beginTick.sweep
  have hflow : stream.Flowing := by
    obtain ⟨stream', hstream', hflow⟩ := hw.consistent.streams.flowing slot g.stream
      (holder_eq_some_iff.mpr ⟨s, g, hs, h.generation, rfl⟩)
    obtain rfl := Option.some.inj (hstream.symm.trans hstream')
    exact hflow
  obtain ⟨s₁, s₂, s₃, hs₃, hswept, hprefilled, hdecoded⟩ :=
    tick_at hw.consistent.seated hw.consistent.streams hs
  have hid₁ := hswept.id_eq
  have hid₂ := hprefilled.id_eq
  have hid₃ := hdecoded.id_eq
  -- The sweep passes over the session.
  have hpassed : s₁ = s ∧ w.beginTick.sweep.worker.streams.get? g.stream = some stream := by
    cases hswept with
    | kept _ hkeeps => exact ⟨rfl, (hkeeps g h.generation).trans hstream⟩
    | ended hend => exact absurd (sweepEvent?_of_onTrack h hstream) hend
  obtain ⟨rfl, hstream₁⟩ := hpassed
  -- The prefill stage moves tokens from the queue to the row, if it does anything.
  have hwritten : OnTrack params whole sampled s₂ (w.beginTick.sweep.prefill.worker.row slot) g
        stream ∧
      w.beginTick.sweep.prefill.worker.streams.get? g.stream = some stream := by
    generalize w.beginTick.sweep.prefill.worker.row slot = row' at hprefilled ⊢
    generalize effectsOn s₁.id w.beginTick.sweep.worker.prefillEffects = effects at hprefilled
    cases hprefilled with
    | skipped hkeeps => exact ⟨h, (hkeeps g h.generation).trans hstream₁⟩
    | @written count _ hkeeps =>
      refine ⟨h.congr rfl rfl ?_, (hkeeps g h.generation).trans hstream₁⟩
      show w.row slot ++ s₁.pending.take count ++ s₁.pending.drop count = _
      rw [List.append_assoc, List.take_append_drop]
    | lost hfailed => exact absurd hfailed (hsweep.not_prefillFails hfail)
  obtain ⟨htrack, hstream₂⟩ := hwritten
  have hsampled : sampled' = sampled ++ sampledOn g.stream
      (effectsOn s₂.id w.beginTick.sweep.prefill.worker.decodeEffects) := by
    show sampled ++ sampledOn g.stream (effectsOn s₁.id w.tickEffects) = _
    rw [sampledOn_tickEffects, hid₂]
    rfl
  rw [hsampled]
  -- The decode stage is a turn or nothing.
  generalize effectsOn s₂.id w.beginTick.sweep.prefill.worker.decodeEffects = effects at hdecoded ⊢
  generalize w.tick.worker.row slot = row' at hdecoded ⊢
  cases hdecoded with
  | waiting hkeeps =>
    refine ⟨s₂, stream, hs₃, hid₂, (hkeeps g htrack.generation).trans hstream₂,
      Or.inl ⟨g, rfl, ?_⟩⟩
    rw [show sampledOn g.stream [] = [] from rfl, List.append_nil]
    exact htrack
  | @served hready g' hg' stream' hstream' hstream'' =>
    obtain rfl := Option.some.inj (htrack.generation.symm.trans hg')
    obtain rfl := Option.some.inj (hstream₂.symm.trans hstream')
    exact ⟨_, _, hs₃, hid₃.trans hid₂, hstream'', htrack.turn hready hflow hroom⟩
  | failed hfailed => exact absurd hfailed (hsweep.prefill.not_decodeFails hfail)

/-! ### Other actions -/

/-- The session's conversation and its stream are left alone. A tick may write to the stream, and
finds room for a piece of text and for the end. -/
def Spares {b : Backend} (name : SessionId) (stream : StreamId) (w : Worker b) : Action → Prop
  | .command (.appendInput id _) => id ≠ name
  | .command (.cancel id) => id ≠ name
  | .command (.endSession id) => id ≠ name
  | .tick => ∀ s, w.streams.get? stream = some s → 2 ≤ s.room
  | .shutdown => False
  | .drop id => id ≠ stream
  | _ => True

instance {b : Backend} (name : SessionId) (stream : StreamId) (w : Worker b) (action : Action) :
    Decidable (Spares name stream w action) :=
  match action with
  | .command (.appendInput id _) => inferInstanceAs (Decidable (id ≠ name))
  | .command (.cancel id) => inferInstanceAs (Decidable (id ≠ name))
  | .command (.endSession id) => inferInstanceAs (Decidable (id ≠ name))
  | .tick => inferInstanceAs (Decidable (∀ s ∈ w.streams.get? stream, 2 ≤ s.room))
  | .shutdown => inferInstanceAs (Decidable False)
  | .drop id => inferInstanceAs (Decidable (id ≠ stream))
  | .command (.createSession ..) | .command (.generate ..) | .command (.snapshot _)
  | .command .status | .command .shutdown | .abandoned .. | .read .. =>
      inferInstanceAs (Decidable True)

/-- **Between two ticks nothing happens to a generation that is left alone.** A second request to
generate is refused while it is active. -/
theorem Step.spares {name : SessionId} {action : Action} (hstep : Step w action w')
    (hw : w.Consistent) (htick : action ≠ .tick) (hfind : w.find? name = some (slot, s))
    (hg : s.generation = some g) (hstream : w.streams.get? g.stream = some stream)
    (hspares : Spares name g.stream w action) :
    w'.find? name = some (slot, s) ∧ w'.row slot = w.row slot ∧
      ∃ stream', w'.streams.get? g.stream = some stream' ∧ stream'.log = stream.log ∧
        stream'.handleOpen = stream.handleOpen := by
  obtain ⟨hindex, hs⟩ := find?_eq_some_iff.mp hfind
  obtain rfl := hw.seated.id_eq hs hindex
  -- A command for another session is about another slot.
  have hmodify : ∀ {id slot'} f, w.index.find? id = some slot' → id ≠ s.id →
      (w.modifySession slot' f).find? s.id = some (slot, s) := fun f hslot' hne =>
    find?_eq_some_iff.mpr ⟨hindex,
      (SlotArena.get?_modify_of_ne (hw.seated.slot_ne hs hslot' hne) f).trans hs⟩
  cases hstep with
  | same => exact ⟨hfind, rfl, stream, hstream, rfl, rfl⟩
  | @create id sampling slot' sessions hnew hinsert tally =>
    have hs' := hw.seated.arena.get?_insertWith_of_eq_some hinsert hs
    refine ⟨find?_eq_some_iff.mpr ⟨?_, hs'⟩, rfl, stream, hstream, rfl, rfl⟩
    rw [SessionIndex.find?_insert, if_neg, hindex]
    rintro rfl
    exact nomatch hnew.symm.trans hindex
  | append hslot => exact ⟨hmodify _ hslot hspares, rfl, stream, hstream, rfl, rfl⟩
  | @generate _ id opened hopened budget =>
    have hactive : s.generation ≠ none := by simp [hg]
    have hs' := hw.seated.get?_generateOn hs opened id budget (.inr hactive)
    refine ⟨find?_eq_some_iff.mpr ⟨by rwa [index_generateOn], hs'⟩, ?_, stream,
      w.stream_generateOn hstream .., rfl, rfl⟩
    unfold row
    rw [context_generateOn]
  | cancel hfind' =>
    exact ⟨hmodify _ (find?_eq_some_iff.mp hfind').1 hspares, rfl, stream, hstream, rfl, rfl⟩
  | @endSession id slot' hslot' tally =>
    have hne := hw.seated.slot_ne hs hslot' hspares
    have hacts := actsOn_finishGeneration w slot' (.done .sessionEnded)
    refine ⟨find?_eq_some_iff.mpr ⟨?_, ?_⟩, ?_, stream, ?_, rfl, rfl⟩
    · rw [SessionIndex.find?_erase, if_neg (Ne.symm hspares), hindex]
    · show ((w.finishGeneration slot' _).release slot').sessions.get? slot = _
      rw [get?_release_finishGeneration, if_neg hne, hs]
    · refine (row_release _ slot' slot).trans ((if_neg hne).trans ?_)
      unfold row
      rw [hacts.context]
    · have hkeeps := hacts.keepsStream hw.streams.distinct hs (List.mem_singleton.not.mpr hne)
      exact (hkeeps g hg).trans hstream
  | tick => exact absurd rfl htick
  | shutdown => exact hspares.elim
  | @consume _ stream' f hf =>
    obtain ⟨stream'', hget, -, hlog, -, hopen⟩ := hf.get?_modify hstream
    refine ⟨hfind, rfl, stream'', hget, hlog, hopen ?_⟩
    rintro rfl
    exact hspares rfl

/-! ### Runs -/

/-- Until the generation on a stream is over, every action leaves it alone. -/
def Undisturbed {b : Backend} (name : SessionId) (stream : StreamId) : Worker b → List Action → Prop
  | _, [] => True
  | w, action :: actions =>
      ((∃ slot, w.holder slot = some stream) → Spares name stream w action) ∧
        Undisturbed name stream (w.act action) actions

/-- A generation is on its way to the whole of its tokens and events, or has arrived. -/
inductive Follows (name : SessionId) (id : StreamId) (whole : List Token × List StreamEvent)
    (w : Worker (ByteModel.backend params)) (sampled : List Token) : Prop
  | running {slot : Slot} {s : Session} {g : Generation} {stream : Stream}
      (hfind : w.find? name = some (slot, s)) (hg : g.stream = id)
      (hstream : w.streams.get? id = some stream)
      (htrack : OnTrack params whole sampled s (w.row slot) g stream) :
      Follows name id whole w sampled
  | finished {stream : Stream} (hstream : w.streams.get? id = some stream)
      (hlog : stream.log = whole.2) (hsampled : sampled = whole.1) : Follows name id whole w sampled

theorem follows_tick {name : SessionId} (hw : w.Accepting) (hfail : params.failOn = none)
    (hfind : w.find? name = some (slot, s)) (hstream : w.streams.get? g.stream = some stream)
    (htrack : OnTrack params whole sampled s (w.row slot) g stream) (hroom : 2 ≤ stream.room) :
    Follows name g.stream whole w.tick.worker
      (sampled ++ sampledOn g.stream (effectsOn name w.tickEffects)) := by
  obtain ⟨hindex, hs⟩ := find?_eq_some_iff.mp hfind
  obtain rfl := hw.consistent.seated.id_eq hs hindex
  obtain ⟨s', stream', hs', hid, hstream', ⟨g', hg', htrack'⟩ | ⟨hlog, hsampled⟩⟩ :=
    onTrack_tick hw hfail hs hstream htrack hroom
  · have hindex' := hw.consistent.tick.seated.find?_id hs'
    rw [hid] at hindex'
    exact .running (find?_eq_some_iff.mpr ⟨hindex', hs'⟩) hg' hstream' htrack'
  · exact .finished hstream' hlog hsampled

theorem Follows.act {name : SessionId} {id : StreamId} (h : Follows name id whole w sampled)
    (hw : w.Accepting) (hfail : params.failOn = none)
    (hwhole : ∃ event ∈ whole.2, event.isTerminal = true) {action : Action}
    (hspares : (∃ slot, w.holder slot = some id) → Spares name id w action) :
    Follows name id whole (w.act action)
      (sampled ++ sampledOn id (effectsOn name (w.effects action))) := by
  cases h with
  | @running slot s g stream hfind hg hstream htrack =>
    subst hg
    obtain ⟨hindex, hs⟩ := find?_eq_some_iff.mp hfind
    have hspares := hspares ⟨slot, holder_eq_some_iff.mpr ⟨s, g, hs, htrack.generation, rfl⟩⟩
    by_cases htick : action = .tick
    · subst htick
      exact follows_tick hw hfail hfind hstream htrack (hspares stream hstream)
    · obtain ⟨hfind', hrow, stream', hstream', hlog, hopen⟩ :=
        (step_act w action).spares hw.consistent htick hfind htrack.generation hstream hspares
      rw [w.sampledOn_effects htick, List.append_nil]
      refine .running hfind' rfl hstream' ?_
      rw [hrow]
      exact { htrack with
        listened := hopen.trans htrack.listened
        events := by rw [hlog, htrack.events] }
  | @finished stream hstream hlog hsampled =>
    -- The terminal event is on the stream, so the session has let go of it for good.
    obtain ⟨event, hmem, hevent⟩ := hwhole
    rw [← hlog] at hmem
    have hfree := hw.consistent.streams.holder_ne_of_terminal hstream hevent hmem
    obtain ⟨stream', hstream', hlog'⟩ :=
      hw.consistent.streams.log_act hw.consistent.seated hstream ⟨event, hmem, hevent⟩ action
    rw [sampledOn_effects_of_unheld hfree action name, List.append_nil]
    exact .finished hstream' (hlog'.trans hlog) hsampled

theorem Follows.run {name : SessionId} {id : StreamId} (hfail : params.failOn = none)
    (hwhole : ∃ event ∈ whole.2, event.isTerminal = true) (actions : List Action)
    (hw : w.Accepting) (h : Follows name id whole w sampled)
    (hundisturbed : Undisturbed name id w actions) :
    Follows name id whole (w.run actions)
      (sampled ++ sampledOn id (effectsOn name (w.trace actions))) := by
  induction actions generalizing w sampled with
  | nil =>
    rw [trace, effectsOn_nil, show sampledOn id [] = [] from rfl, List.append_nil]
    exact h
  | cons action rest ih =>
    obtain ⟨hspares, hrest⟩ := hundisturbed
    have hnext := ih (hw.act action) (h.act hw hfail hwhole hspares) hrest
    rwa [List.append_assoc, ← sampledOn_append, ← effectsOn_append] at hnext

/-- A generation that is accepted has the whole of its reference before it. -/
theorem follows_generate {name : SessionId} (hw : w.Accepting)
    (hfind : w.find? name = some (slot, s)) {budget capacity : Nat}
    (haccepted : (w.act (.command (.generate name budget capacity))).holder slot =
      some w.streams.entries.length) :
    let reference := sequential params budget (w.row slot ++ s.pending) s.sampler
    Follows name w.streams.entries.length
      (reference.1, transcript (ByteModel.backend params) {} reference.1 reference.2)
      (w.act (.command (.generate name budget capacity))) [] := by
  intro reference
  -- If the request was refused, nobody would hold the stream that it has opened.
  have hunheld := hw.consistent.streams.holder_ne_add slot (.ofCapacity name capacity)
  change (w.generateOn (.ofCapacity name capacity) name budget).holder slot = _ at haccepted
  show Follows name w.streams.entries.length _
    (w.generateOn (.ofCapacity name capacity) name budget) []
  rcases w.generateOn_cases (.ofCapacity name capacity) name budget with
    ⟨event, tally, -, heq⟩ | ⟨slot', s', event, -, -, -, heq⟩ |
      ⟨slot', s', tally, hfind', -, -, -, -, heq⟩
  · rw [heq] at haccepted
    exact absurd haccepted hunheld
  · rw [heq] at haccepted
    have hholder := holder_modifySession slot' (w := w)
      (fun s' _ => (Session.quiet_inputError none).stream s') slot
    exact absurd (hholder.symm.trans haccepted) hunheld
  · obtain ⟨rfl, rfl⟩ := Prod.mk.inj (Option.some.inj (hfind'.symm.trans hfind))
    obtain ⟨hindex, hs⟩ := find?_eq_some_iff.mp hfind
    let g : Generation := { budget, stream := w.streams.entries.length }
    have htrack : OnTrack params
        (reference.1, transcript (ByteModel.backend params) {} reference.1 reference.2) []
        { s' with generation := some g } (w.row slot') g (.ofCapacity name capacity) :=
      ⟨rfl, rfl, rfl, fun _ h => absurd h List.not_mem_nil, rfl, rfl⟩
    rw [heq]
    refine .running (find?_eq_some_iff.mpr ⟨hindex, ?_⟩) rfl (Streams.get?_add_self _) htrack
    show (w.sessions.modify slot' _).get? slot' = _
    rw [SlotArena.get?_modify_self, hs]
    rfl

/-- Some run over the byte model leads to the worker. -/
def Reachable (w : Worker (ByteModel.backend params)) : Prop :=
  ∃ id rows config actions, (fresh params id rows config).run actions = w

theorem Reachable.accepting (hw : w.Reachable) : w.Accepting := by
  obtain ⟨id, rows, config, actions, rfl⟩ := hw
  exact run_induction (fun _ action hw => hw.act action) (Accepting.fresh params id rows config)
    actions

/-- **Batched decoding refines sequential decoding.** Take a byte model without a byte to refuse,
any worker that a run leads to, with any bounds of its batches, and a request to generate for one of
its sessions that is accepted: after it the session holds the stream that the request has opened.
Let the run go on in any way that leaves this generation alone until it is over. Then the tokens
sampled for it and the events on its stream are at any time the first ones of the reference:
sequential decoding of the row of the session followed by its queue, as they were when the request
was handled, with the session's sampler. When nobody holds the stream any more, they are all of the
reference. -/
theorem sequential_run (hfail : params.failOn = none) (hw : w.Reachable) {name : SessionId}
    (hfind : w.find? name = some (slot, s)) {budget capacity : Nat}
    (haccepted : (w.act (.command (.generate name budget capacity))).holder slot =
      some w.streams.entries.length)
    {actions : List Action}
    (hundisturbed : Undisturbed name w.streams.entries.length
      (w.act (.command (.generate name budget capacity))) actions) :
    let opened := w.act (.command (.generate name budget capacity))
    let reference := sequential params budget (w.row slot ++ s.pending) s.sampler
    let events := transcript (ByteModel.backend params) {} reference.1 reference.2
    let sampled := sampledOn w.streams.entries.length (effectsOn name (opened.trace actions))
    ∃ stream, (opened.run actions).streams.get? w.streams.entries.length = some stream ∧
      sampled <+: reference.1 ∧ stream.log <+: events ∧
      ((∀ slot', (opened.run actions).holder slot' ≠ some w.streams.entries.length) →
        sampled = reference.1 ∧ stream.log = events) := by
  intro opened reference events sampled
  have hterminal : ∃ event ∈ events, event.isTerminal = true :=
    ⟨reference.2, mem_transcript .., isTerminal_sequential ..⟩
  have hfollows := (follows_generate hw.accepting hfind haccepted).run hfail hterminal actions
    (hw.accepting.act _) hundisturbed
  rw [List.nil_append] at hfollows
  cases hfollows with
  | @running slot' s' g stream hfind' hg hstream htrack =>
    refine ⟨stream, hstream, ⟨_, htrack.tokens⟩, ⟨_, htrack.events⟩, fun hfree => ?_⟩
    have hs' := (find?_eq_some_iff.mp hfind').2
    exact absurd (holder_eq_some_iff.mpr ⟨s', g, hs', htrack.generation, hg⟩) (hfree slot')
  | @finished stream hstream hlog hsampled =>
    exact ⟨stream, hstream, hsampled ▸ List.prefix_rfl, hlog ▸ List.prefix_rfl,
      fun _ => ⟨hsampled, hlog⟩⟩

/-- A worker with places for one token in its batches of either kind, and two sessions: the first
one has three letters in its queue, and the second one is to decode two tokens. -/
def twoQueues : Worker (ByteModel.backend {}) :=
  (fresh {} ⟨0⟩ 2 { batching := { maxPrefillTokens := 1, maxDecodeSequences := 1 } }).run
    [.command (.createSession ⟨1⟩ {}), .command (.createSession ⟨2⟩ {}),
      .command (.appendInput ⟨1⟩ "abc"), .command (.appendInput ⟨2⟩ "x"),
      .command (.generate ⟨2⟩ 2 8)]

/-- Three letters for the first session, requested from that worker. -/
def nextLetters : Worker (ByteModel.backend {}) :=
  twoQueues.act (.command (.generate ⟨1⟩ 3 8))

/-- Ticks, with commands to the second session between them. -/
def meanwhile : List Action :=
  [.tick, .command (.appendInput ⟨2⟩ "y"), .tick, .tick, .command (.cancel ⟨2⟩), .tick, .tick]

/-- Two letters are written before the first one is sampled, and the sessions take turns. -/
theorem sequential_run_in_turns :
    ∃ stream, (nextLetters.run meanwhile).streams.get? twoQueues.streams.entries.length =
        some stream ∧
      sampledOn twoQueues.streams.entries.length (effectsOn ⟨1⟩ (nextLetters.trace meanwhile)) =
        [101, 115, 97] ∧
      stream.log = [.chunk "e", .chunk "s", .chunk "a", .done .length] := by
  have hreachable : twoQueues.Reachable := ⟨⟨0⟩, 2, _, _, rfl⟩
  have hfind : twoQueues.find? ⟨1⟩ = some
      (⟨0⟩, { id := ⟨1⟩, slot := ⟨0⟩, pending := [97, 98, 99], sampler := .ofConfig {} }) := by
    decide +kernel
  have haccepted : nextLetters.holder ⟨0⟩ = some twoQueues.streams.entries.length := by
    decide +kernel
  have hundisturbed : Undisturbed ⟨1⟩ twoQueues.streams.entries.length nextLetters meanwhile := by
    refine ⟨fun _ => ?_, fun _ => ?_, fun _ => ?_, fun _ => ?_, fun _ => ?_, fun _ => ?_,
      fun _ => ?_, trivial⟩ <;> decide +kernel
  obtain ⟨stream, hstream, -, -, hall⟩ :=
    sequential_run rfl hreachable hfind haccepted hundisturbed
  -- The generation is over, as the last event is on its stream, so the sampled tokens are all.
  have hfinal : (nextLetters.run meanwhile).streams.get? twoQueues.streams.entries.length = some
      { session := ⟨1⟩, capacity := 8, sinkOpen := false
        log := [.chunk "e", .chunk "s", .chunk "a", .done .length] } := by
    decide +kernel
  have haccepting : (nextLetters.run meanwhile).Accepting :=
    run_induction (fun _ action hw => hw.act action) (hreachable.accepting.act _) meanwhile
  have hlast : StreamEvent.done .length ∈
      [.chunk "e", .chunk "s", .chunk "a", StreamEvent.done .length] := by decide
  obtain ⟨hsampled, hlog⟩ :=
    hall (haccepting.consistent.streams.holder_ne_of_terminal hfinal rfl hlast)
  have hreference :
      sequential {} 3 [97, 98, 99] (.ofConfig {}) = ([101, 115, 97], .done .length) := by
    decide +kernel
  refine ⟨stream, hstream, hsampled.trans (congrArg Prod.fst hreference), hlog.trans ?_⟩
  show transcript _ _ (sequential {} 3 [97, 98, 99] (.ofConfig {})).1
    (sequential {} 3 [97, 98, 99] (.ofConfig {})).2 = _
  rw [hreference]
  decide +kernel

end Worker

end Turnwise
