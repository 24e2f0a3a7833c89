import Mathlib.Data.List.Induction
import Turnwise.Proofs.Worker.Generations
import Turnwise.Proofs.Worker.Sequential

/-!
# What reaches the consumer of a stream

The text of a generation leaves through two sends. While the generation runs, each token goes
through its decoder, and a piece of text that finds no room ends the generation as *sink
unavailable*. When the generation ends, the tokens that are still held give a last piece of text,
and it is sent without looking at what became of it.

So the pieces on the stream of a running generation are those that its decoder gave out
(`Worker.Telling`), and what a consumer may miss at a normal end is the last piece: it gets lost
just if the stream had less than two free places when the end came (`Worker.delivered_run`). Then
nothing on the stream says that text is missing (`Worker.held_text_lost`).
-/

namespace Turnwise

/-! ### Pieces of text -/

/-- The text of the pieces on a stream, put together. -/
def spoken : List StreamEvent → String
  | [] => ""
  | .chunk text :: rest => text ++ spoken rest
  | _ :: rest => spoken rest

namespace DeltaDecoder

variable {b : Backend} (decoder : DeltaDecoder)

/-- The pieces of text that a decoder gives out for tokens, and the decoder after them. A token that
ends the generation has no text. -/
def feed (b : Backend) (decoder : DeltaDecoder) : List Token → List StreamEvent × DeltaDecoder
  | [] => ([], decoder)
  | token :: rest =>
      if b.isEndOfGeneration token then decoder.feed b rest
      else
        let (decoder, output) := decoder.push b.detokenize token
        let (pieces, last) := decoder.feed b rest
        (chunkOf output ++ pieces, last)

theorem feed_append (tokens tokens' : List Token) :
    decoder.feed b (tokens ++ tokens') =
      ((decoder.feed b tokens).1 ++ ((decoder.feed b tokens).2.feed b tokens').1,
        ((decoder.feed b tokens).2.feed b tokens').2) := by
  induction tokens generalizing decoder with
  | nil => rfl
  | cons token rest ih =>
    rw [List.cons_append, feed, feed]
    split_ifs
    · exact ih decoder
    · dsimp only
      rw [ih, List.append_assoc]

/-- The events of a generation are the pieces for its tokens, what is left, and its end. -/
theorem transcript_eq_feed (tokens : List Token) (ending : StreamEvent) :
    transcript b decoder tokens ending =
      (decoder.feed b tokens).1 ++ closing b (decoder.feed b tokens).2 ending := by
  induction tokens generalizing decoder with
  | nil => rfl
  | cons token rest ih =>
    rw [transcript, feed]
    split_ifs
    · exact ih decoder
    · dsimp only
      rw [ih, List.append_assoc]

end DeltaDecoder

/-! ### Generations -/

theorem Stream.offer_eq_sent {s s' : Stream} {text : String} (h : s.offer text = (.sent, s')) :
    s' = s.put (.chunk text) ∧ 2 ≤ s.room := by
  unfold offer at h
  split_ifs at h with hclosed hroom
  · cases h
  · cases h
  · exact ⟨(congrArg Prod.snd h).symm, Nat.le_of_not_lt hroom⟩

namespace Generation

variable {b : Backend} {g g' : Generation} {s s' : Stream} {token : Token} {reason : FinishReason}

theorem flowing_advance (b : Backend) (h : s.Flowing) (g : Generation) (token : Token) :
    (g.advance b token s).2.2.Flowing := by
  unfold advance
  split
  · exact h
  · have htext := g.decoder.push_ne_empty b.detokenize token
    rcases hpush : g.decoder.push b.detokenize token with ⟨decoder, e | _ | text⟩
    · exact h
    · exact h
    · have hoffer := h.offer (htext text (by rw [hpush]))
      dsimp only
      rcases hdelivery : s.offer text with ⟨_ | _ | _, s''⟩ <;> rw [hdelivery] at hoffer <;>
        exact hoffer

/-- **A token that does not end the generation in trouble** has its text sent. If there was text, it
had room, and nothing is held any more. -/
theorem pieces_of_advance {event? : Option StreamEvent}
    (hadvance : g.advance b token s = (event?, g', s'))
    (hevent : ∀ event, event? = some event →
      ∃ reason, event = .done reason ∧ reason ≠ .sinkUnavailable) :
    s'.log = s.log ++ (g.decoder.feed b [token]).1 ∧
      g'.decoder = (g.decoder.feed b [token]).2 ∧
      (s' = s ∨ 2 ≤ s.room ∧ g'.decoder.held = []) := by
  have hfeed : g.decoder.feed b [token] =
      if b.isEndOfGeneration token then ([], g.decoder)
      else (chunkOf (g.decoder.push b.detokenize token).2,
        (g.decoder.push b.detokenize token).1) := by
    simp only [DeltaDecoder.feed, List.append_nil]
  rw [hfeed]
  unfold advance at hadvance
  by_cases hend : b.isEndOfGeneration token = true
  · rw [if_pos hend] at hadvance ⊢
    obtain ⟨-, rfl, rfl⟩ := hadvance
    exact ⟨(List.append_nil _).symm, rfl, .inl rfl⟩
  · rw [if_neg hend] at hadvance ⊢
    rcases hpush : g.decoder.push b.detokenize token with ⟨decoder, e | _ | text⟩
    · rw [hpush] at hadvance
      obtain ⟨rfl, -, -⟩ := hadvance
      obtain ⟨reason, herror, -⟩ := hevent _ rfl
      cases herror
    · rw [hpush] at hadvance
      obtain ⟨-, rfl, rfl⟩ := hadvance
      exact ⟨(List.append_nil _).symm, rfl, .inl rfl⟩
    · have hempty := DeltaDecoder.push_of_text (congrArg Prod.snd hpush)
      rw [hpush] at hadvance hempty
      dsimp only at hadvance
      -- A refused offer would have ended the generation in trouble.
      have hrefused : event? ≠ some (.done .sinkUnavailable) := by
        rintro rfl
        obtain ⟨reason, hdone, hreason⟩ := hevent _ rfl
        exact hreason (StreamEvent.done.inj hdone).symm
      rcases hoffer : s.offer text with ⟨_ | _ | _, s''⟩
      · rw [hoffer] at hadvance
        obtain ⟨-, rfl, rfl⟩ := hadvance
        obtain ⟨rfl, hroom⟩ := Stream.offer_eq_sent hoffer
        exact ⟨rfl, rfl, .inr ⟨hroom, congrArg DeltaDecoder.held hempty⟩⟩
      · rw [hoffer] at hadvance
        exact absurd (congrArg Prod.fst hadvance).symm hrefused
      · rw [hoffer] at hadvance
        exact absurd (congrArg Prod.fst hadvance).symm hrefused

/-- A last piece of text that finds no room is lost. -/
theorem log_close_of_tight (hflow : s.Flowing) (hopen : s.handleOpen = true)
    (htight : s.room < 2) (reason : FinishReason) :
    (g.close b (.done reason) s).log = s.log ++ [.done reason] := by
  have hflush : g.flushTo b s = s := by
    unfold flushTo
    split
    · rw [Stream.offer, hopen, if_neg (by decide), if_pos htight]
    · rfl
  rw [close, hflush, hflow.finish_log, if_pos hopen]

/-- The stream of a generation that ends has no other terminal event than this end. -/
theorem done_mem_close {event : StreamEvent} (hflow : s.Flowing)
    (hmem : .done reason ∈ (g.close b event s).log) : event = .done reason := by
  have hfinish : ∀ {s : Stream}, s.Flowing → .done reason ∈ (s.finish event).log →
      event = .done reason := by
    intro s hflow hmem
    have hchunks : .done reason ∉ s.log := by
      intro hmem
      obtain ⟨text, -, heq⟩ := hflow.chunks _ hmem
      cases heq
    rw [hflow.finish_log] at hmem
    split_ifs at hmem
    · have hlast := (List.mem_append.mp hmem).resolve_left hchunks
      exact (List.mem_singleton.mp hlast).symm
    · exact absurd hmem hchunks
  unfold close at hmem
  split at hmem
  · exact hfinish (flowing_flushTo hflow) hmem
  · exact hfinish hflow hmem

/-- What a running generation has said is what its decoder gave out for its tokens. -/
structure Said (b : Backend) (tokens : List Token) (g : Generation) (s : Stream) : Prop where
  log : s.log = (({} : DeltaDecoder).feed b tokens).1
  decoder : g.decoder = (({} : DeltaDecoder).feed b tokens).2

namespace Said

variable {tokens tokens' : List Token}

theorem goes (h : Said b tokens g s) (hgoes : g.Goes b s (some g') s' tokens') :
    Said b (tokens ++ tokens') g' s' := by
  cases hgoes with
  | passed _ hlog =>
    rw [List.append_nil]
    exact ⟨hlog.trans h.log, h.decoder⟩
  | advanced hadvance =>
    obtain ⟨hlog, hdecoder, -⟩ := pieces_of_advance hadvance nofun
    rw [h.log, h.decoder] at hlog
    rw [h.decoder] at hdecoder
    constructor
    · rw [DeltaDecoder.feed_append, hlog]
    · rw [DeltaDecoder.feed_append, hdecoder]

/-- **What is on the stream of a generation that has ended.** It is everything, or if there was no
room left, everything but what was still held. -/
theorem ends (h : Said b tokens g s) (hflow : s.Flowing) (hgoes : g.Goes b s none s' tokens')
    (hopen : s'.handleOpen = true) (hdone : .done reason ∈ s'.log)
    (hreason : reason ≠ .sinkUnavailable) :
    s'.log =
      if s.room < 2 then (({} : DeltaDecoder).feed b (tokens ++ tokens')).1 ++ [.done reason]
      else transcript b {} (tokens ++ tokens') (.done reason) := by
  rw [DeltaDecoder.transcript_eq_feed]
  cases hgoes with
  | ended =>
    obtain rfl := done_mem_close hflow hdone
    rw [(g.extends_close b _ s).handleOpen] at hopen
    rw [List.append_nil, ← h.log, ← h.decoder]
    split_ifs with htight
    · exact log_close_of_tight hflow hopen htight reason
    · exact log_close hflow hopen (.inl (Nat.le_of_not_lt htight)) _
  | @finished token event g' s' hadvance =>
    have hflow' : s'.Flowing := by
      have hadvanced := flowing_advance b hflow g token
      rwa [hadvance] at hadvanced
    obtain rfl := done_mem_close hflow' hdone
    rw [(g'.extends_close b _ s').handleOpen] at hopen
    obtain ⟨hlog, hdecoder, hsame | ⟨hroom, hheld⟩⟩ :=
      pieces_of_advance hadvance fun event heq => ⟨reason, (Option.some.inj heq).symm, hreason⟩
    all_goals
      rw [h.log, h.decoder] at hlog
      rw [h.decoder] at hdecoder
      rw [DeltaDecoder.feed_append]
      dsimp only
      rw [← hlog, ← hdecoder]
    -- No text came out with the last token, so there is as much room as before.
    · rw [← hsame]
      split_ifs with htight
      · exact log_close_of_tight hflow' hopen htight reason
      · exact log_close hflow' hopen (.inl (Nat.le_of_not_lt htight)) _
    · rw [if_neg (Nat.not_lt.mpr hroom)]
      exact log_close hflow' hopen (.inr hheld) _

end Said

end Generation

namespace Worker

variable {b : Backend} {w : Worker b} {slot : Slot} {s s' : Session} {g g' : Generation}
  {stream stream' : Stream}

/-! ### Runs -/

/-- Given what has happened so far, every running generation has said what its decoder gave out.
Nothing was sampled for streams that are yet to be opened. -/
structure Telling (w : Worker b) (past : List (SessionId × Effect)) : Prop where
  said : ∀ slot s g stream, w.Runs slot s g stream →
    g.Said b (sampledOn g.stream (effectsOn s.id past)) stream
  unopened : ∀ id, w.streams.get? id = none → ∀ name, sampledOn id (effectsOn name past) = []

/-- A stream that is not on the table is nobody's. -/
theorem StreamsSound.unheld_of_unopened (hsound : w.StreamsSound) {id : StreamId}
    (hnew : w.streams.get? id = none) (slot : Slot) : w.holder slot ≠ some id := by
  intro hheld
  obtain ⟨stream, hstream, -⟩ := hsound.flowing slot id hheld
  exact nomatch hnew.symm.trans hstream

theorem Telling.act {past : List (SessionId × Effect)} (h : w.Telling past) (hw : w.Seated)
    (hsound : w.StreamsSound) (action : Action) :
    (w.act action).Telling (past ++ w.effects action) := by
  constructor
  · intro slot s' g' stream' hruns'
    rw [effectsOn_append, sampledOn_append]
    rcases hruns'.before hw hsound with
      ⟨s, g, stream, hruns, hid, hgoes⟩ | ⟨hnew, hdecoder, hfresh⟩
    · rw [hid, hgoes.stream_eq]
      exact (h.said slot s g stream hruns).goes hgoes
    · have hunheld := hsound.unheld_of_unopened hnew
      rw [h.unopened g'.stream hnew, sampledOn_effects_of_unheld hunheld]
      exact ⟨hfresh.log_eq, hdecoder⟩
  · intro id hnew' name
    have hnew : w.streams.get? id = none := by
      by_contra hold
      obtain ⟨stream, hstream⟩ := Option.ne_none_iff_exists'.mp hold
      obtain ⟨stream', hstream', -⟩ := (step_act w action).grow id stream hstream
      exact nomatch hnew'.symm.trans hstream'
    rw [effectsOn_append, sampledOn_append, h.unopened id hnew,
      sampledOn_effects_of_unheld (hsound.unheld_of_unopened hnew), List.nil_append]

theorem telling_run (id : WorkerId) (context : b.Context) (config : WorkerConfig)
    (actions : List Action) :
    ((start id context config).run actions).Telling ((start id context config).trace actions) := by
  induction actions using List.reverseRecOn with
  | nil =>
    refine ⟨fun slot s g stream hruns => ?_, fun _ _ _ => rfl⟩
    have hnobody := hruns.session
    rw [run_nil, get?_start] at hnobody
    cases hnobody
  | append_singleton before action ih =>
    rw [run_append, trace_append, trace, trace, List.append_nil]
    exact ih.act (seated_run id context config before) (streamsSound_run id context config before)
      action

/-- There is no room on a stream but for its end. -/
def Tight (w : Worker b) (stream : StreamId) : Prop :=
  ∃ s, w.streams.get? stream = some s ∧ s.room < 2

/-- An action puts the terminal event on a stream, and then this is what is on it. -/
def Ends (w : Worker b) (stream : StreamId) (action : Action) (log : List StreamEvent) : Prop :=
  (∀ s, w.streams.get? stream = some s → Chunks s.log) ∧
    ∃ s, (w.act action).streams.get? stream = some s ∧ s.log = log

/-- A request that is refused leaves the refusal on its stream and nothing else. -/
theorem Opened.log_of_done {name : SessionId} (h : Opened name stream)
    (hopen : stream.handleOpen = true) {reason : FinishReason} (hdone : .done reason ∈ stream.log) :
    stream.log = [.done reason] := by
  cases h with
  | accepted hfresh =>
    rw [hfresh.log_eq] at hdone
    exact absurd hdone List.not_mem_nil
  | @refused s hfresh event =>
    rw [(s.extends_finish event).handleOpen] at hopen
    rw [hfresh.flowing.finish_log, if_pos hopen, hfresh.log_eq] at hdone ⊢
    obtain rfl := List.mem_singleton.mp hdone
    rfl

/-- What is on a stream after the action that has put the end on it. -/
theorem Telling.log_of_end {past : List (SessionId × Effect)} (h : w.Telling past)
    (hw : w.Seated) (hsound : w.StreamsSound) (hnamed : w.Named) {action : Action} {id : StreamId}
    (hends : w.Ends id action stream.log) (hstream : (w.act action).streams.get? id = some stream)
    (hopen : stream.handleOpen = true) {reason : FinishReason} (hdone : .done reason ∈ stream.log)
    (hreason : reason ≠ .sinkUnavailable) :
    let sampled := sampledOn id (effectsOn stream.session (past ++ w.effects action))
    (¬ w.Tight id → stream.log = transcript b {} sampled (.done reason)) ∧
      (w.Tight id → stream.log = (({} : DeltaDecoder).feed b sampled).1 ++ [.done reason]) := by
  intro sampled
  have hnew : ∀ {stream' : Stream}, Chunks stream'.log → .done reason ∉ stream'.log := by
    intro stream' hchunks hmem
    obtain ⟨text, -, heq⟩ := hchunks _ hmem
    cases heq
  have hstep := step_act w action
  have hsampled : sampled = sampledOn id (effectsOn stream.session past) ++
      sampledOn id (effectsOn stream.session (w.effects action)) := by
    rw [← sampledOn_append, ← effectsOn_append]
  cases hold : w.streams.get? id with
  -- The stream was opened by a request that was refused, and nothing was sampled for it.
  | none =>
    have hnone : sampled = [] := by
      rw [hsampled, h.unopened id hold, List.nil_append,
        sampledOn_effects_of_unheld (hsound.unheld_of_unopened hold)]
    have hloose : ¬ w.Tight id := fun ⟨stream', hstream', _⟩ => nomatch hold.symm.trans hstream'
    refine ⟨fun _ => ?_, fun htight => absurd htight hloose⟩
    obtain ⟨name, -, hopened⟩ := hstep.opened hold hstream
    rw [hnone, hopened.log_of_done hopen hdone]
    rfl
  | some before =>
    have hchunks := hends.1 before hold
    by_cases hheld : ∃ slot, w.holder slot = some id
    · obtain ⟨slot, hheld⟩ := hheld
      obtain ⟨s, g, before', hruns, rfl⟩ := hsound.exists_runs hheld
      obtain rfl := Option.some.inj (hold.symm.trans hruns.stream)
      have hsession := hnamed slot s g before hruns
      obtain ⟨g?, after, hleaves, hgoes⟩ := hruns.act hw hsound action
      cases g? with
      | some g' =>
        obtain ⟨hsame, s', hruns', -⟩ := hleaves
        have hafter := hruns'.stream
        rw [hsame] at hafter
        obtain rfl := Option.some.inj (hstream.symm.trans hafter)
        exact absurd hdone (hnew (hruns'.flowing (hstep.streamsSound hw hsound)).chunks)
      | none =>
        obtain rfl := Option.some.inj (hstream.symm.trans hleaves.1)
        have hlog := (h.said slot s g before hruns).ends (hruns.flowing hsound) hgoes hopen hdone
          hreason
        rw [← hsession, ← hgoes.session_eq, ← hsampled] at hlog
        refine ⟨fun hloose => ?_, fun ⟨before', hbefore', htight⟩ => ?_⟩
        · rw [hlog, if_neg fun htight => hloose ⟨before, hold, htight⟩]
        · obtain rfl := Option.some.inj (hold.symm.trans hbefore')
          rw [hlog, if_pos htight]
    · rw [not_exists] at hheld
      obtain ⟨-, after, hafter, -, hlog, -⟩ := hstep.unheld hheld hw hold
      obtain rfl := Option.some.inj (hstream.symm.trans hafter)
      rw [hlog] at hdone
      exact absurd hdone (hnew hchunks)

/-- **What a consumer may miss.** On any backend and after any actions, take a stream whose handle
is open and that has come to an end that is neither an error nor for want of a consumer who keeps
up. Some action of the run has put the end on it. What is on the stream then is what the decoder
gave out for the tokens sampled for the stream, and the text of the tokens that were still held, and
the end; but the held text is missing if the stream had no room for it before this action. -/
theorem delivered_run (id : WorkerId) (context : b.Context) (config : WorkerConfig)
    (actions : List Action) {stream : StreamId} {s : Stream}
    (hs : ((start id context config).run actions).streams.get? stream = some s)
    (hopen : s.handleOpen = true) {reason : FinishReason} (hdone : .done reason ∈ s.log)
    (hreason : reason ≠ .sinkUnavailable) :
    let sampled :=
      sampledOn stream (effectsOn s.session ((start id context config).trace actions))
    ∃ before action after, actions = before ++ action :: after ∧
      ((start id context config).run before).Ends stream action s.log ∧
      (¬ ((start id context config).run before).Tight stream →
        s.log = transcript b {} sampled (.done reason)) ∧
      (((start id context config).run before).Tight stream →
        s.log = (({} : DeltaDecoder).feed b sampled).1 ++ [.done reason]) := by
  induction actions using List.reverseRecOn generalizing s with
  | nil => exact nomatch hs
  | append_singleton before action ih =>
    have hseated := seated_run id context config before
    have hsound := streamsSound_run id context config before
    rw [run_append] at hs
    rw [trace_append, trace, trace, List.append_nil]
    by_cases hends : ((start id context config).run before).Ends stream action s.log
    · exact ⟨before, action, [], rfl, hends, (telling_run id context config before).log_of_end
        hseated hsound (named_run id context config before) hends hs hopen hdone hreason⟩
    -- The end was there before this action, which has not changed anything about it.
    · have hover : ∃ s₀, ((start id context config).run before).streams.get? stream = some s₀ ∧
          ¬ Chunks s₀.log := by
        by_contra hnone
        exact hends ⟨fun s₀ hs₀ => by_contra fun hmore => hnone ⟨s₀, hs₀, hmore⟩, s, hs, rfl⟩
      obtain ⟨s₀, hs₀, hmore⟩ := hover
      have hfree : ∀ slot, ((start id context config).run before).holder slot ≠ some stream := by
        intro slot hheld
        obtain ⟨s₁, hs₁, hflow⟩ := hsound.flowing slot stream hheld
        obtain rfl := Option.some.inj (hs₀.symm.trans hs₁)
        exact hmore hflow.chunks
      obtain ⟨-, s₁, hs₁, hsession, hlog, hopen'⟩ :=
        (step_act _ action).unheld hfree hseated hs₀
      obtain rfl := Option.some.inj (hs.symm.trans hs₁)
      obtain ⟨early, last, late, rfl, hlast⟩ := ih hs₀ (hopen' hopen) (hlog ▸ hdone)
      rw [effectsOn_append, sampledOn_append, sampledOn_effects_of_unheld hfree, List.append_nil,
        hsession, hlog]
      exact ⟨early, last, late ++ [action], by simp, hlast⟩

/-! ### Half a character -/

/-- A backend whose only token is half a character, and which never fails. -/
def halves : Backend where
  Context := Unit
  name := "halves"
  vocabularySize := 1
  tokenize text := .ok (text.toList.map fun _ => 0)
  detokenize tokens := .ok <| String.ofList <|
    List.replicate (tokens.length / 2) 'é' ++ List.replicate (tokens.length % 2) Utf8.replacement
  isEndOfGeneration _ := false
  newContext _ := .ok ()
  slotCount _ := 1
  residentLength _ _ := 0
  removeSlot context _ := context
  compute context batch :=
    (context, .ok ((batch.entries.filter (·.wantLogits)).map fun _ => [0]))

/-- Three tokens are requested, on a stream of the given capacity. -/
def threeHalves (capacity : Nat) : List Action :=
  [.command (.createSession ⟨1⟩ {}), .command (.appendInput ⟨1⟩ "x"),
    .command (.generate ⟨1⟩ 3 capacity), .tick, .tick, .tick]

/-- The worker that serves the request. -/
def halvesWorker : Worker halves := start ⟨0⟩ () {}

theorem delivered_run_halves :
    ∃ s, (halvesWorker.run (threeHalves 3)).streams.get? 0 = some s ∧ s.handleOpen = true ∧
      .done .length ∈ s.log ∧
      ∃ before action after, threeHalves 3 = before ++ action :: after ∧
        (halvesWorker.run before).Ends 0 action s.log ∧
        (¬ (halvesWorker.run before).Tight 0 → s.log = transcript halves {}
          (sampledOn 0 (effectsOn s.session (halvesWorker.trace (threeHalves 3))))
          (.done .length)) ∧
        ((halvesWorker.run before).Tight 0 → s.log = (({} : DeltaDecoder).feed halves
          (sampledOn 0 (effectsOn s.session (halvesWorker.trace (threeHalves 3))))).1 ++
            [.done .length]) := by
  have hstream : (halvesWorker.run (threeHalves 3)).streams.get? 0 = some
      { session := ⟨1⟩, capacity := 3, sinkOpen := false
        log := [.chunk "é", .chunk "\uFFFD", .done .length] } := by
    decide +kernel
  have hdone : StreamEvent.done .length ∈
      [StreamEvent.chunk "é", .chunk "\uFFFD", .done .length] := by
    decide
  have hreason : FinishReason.length ≠ .sinkUnavailable := by decide
  have hdelivered := delivered_run (b := halves) ⟨0⟩ () {} (threeHalves 3) hstream rfl hdone hreason
  exact ⟨_, hstream, rfl, hdone, hdelivered⟩

/-- With two places on the stream the third token is not heard of: the generation ends as if its
whole text had been delivered. -/
theorem held_text_lost :
    (∀ tokens, ∃ text, halves.detokenize tokens = .ok text) ∧
      ∃ s, (halvesWorker.run (threeHalves 2)).streams.get? 0 = some s ∧ s.handleOpen = true ∧
        s.log = [.chunk "é", .done .length] ∧
        transcript halves {}
          (sampledOn 0 (effectsOn s.session (halvesWorker.trace (threeHalves 2))))
          (.done .length) = [.chunk "é", .chunk "\uFFFD", .done .length] ∧
        spoken s.log ≠ spoken (transcript halves {}
          (sampledOn 0 (effectsOn s.session (halvesWorker.trace (threeHalves 2))))
          (.done .length)) := by
  have hstream : (halvesWorker.run (threeHalves 2)).streams.get? 0 = some
      { session := ⟨1⟩, capacity := 2, sinkOpen := false
        log := [.chunk "é", .done .length] } := by
    decide +kernel
  have htranscript : transcript halves {}
      (sampledOn 0 (effectsOn ⟨1⟩ (halvesWorker.trace (threeHalves 2))))
      (.done .length) = [.chunk "é", .chunk "\uFFFD", .done .length] := by
    decide +kernel
  refine ⟨fun tokens => ⟨_, rfl⟩, _, hstream, rfl, rfl, htranscript, ?_⟩
  rw [htranscript]
  decide +kernel

end Worker

end Turnwise
