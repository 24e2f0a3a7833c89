import Turnwise.Proofs.ByteModel
import Turnwise.Proofs.Worker.Streams

/-!
# Sequential decoding

The reference for what a generation on the byte model produces. It knows of one conversation only:
sample a token from the logits after everything so far, append it, and repeat, until the budget is
spent, the token that ends a generation is drawn, or the sampler fails (`sequential`). The events on
the stream of a generation follow from its tokens and its terminal event (`transcript`).

The second part is about a stream that has room and a listener: the events that a generation puts on
it are then those of the transcript (`Generation.advance_of_room`, `Generation.log_close`).
-/

namespace Turnwise

open ByteModel (endOfGeneration logitsFor)

/-! ### Tokens -/

/-- Samples up to `budget` tokens, each from the logits after the history and the tokens before it.
Gives the tokens and the terminal event. -/
def sequential (params : ByteModel.Params) :
    Nat → List Token → Sampler → List Token × StreamEvent
  | 0, _, _ => ([], .done .length)
  | budget + 1, history, sampler =>
      match sampler.sample (logitsFor params history) with
      | .error e => ([], .error e.message)
      | .ok (token, sampler) =>
          if token = endOfGeneration then ([token], .done .endOfGeneration)
          else
            let (tokens, ending) := sequential params budget (history ++ [token]) sampler
            (token :: tokens, ending)

section Sequential

variable {params : ByteModel.Params} {budget : Nat} {history : List Token}
  {sampler sampler' : Sampler} {token : Token}

theorem sequential_of_error {e : Error}
    (h : sampler.sample (logitsFor params history) = .error e) :
    sequential params (budget + 1) history sampler = ([], .error e.message) := by
  rw [sequential, h]

theorem sequential_of_end
    (h : sampler.sample (logitsFor params history) = .ok (endOfGeneration, sampler')) :
    sequential params (budget + 1) history sampler =
      ([endOfGeneration], .done .endOfGeneration) := by
  rw [sequential, h]
  exact if_pos rfl

theorem sequential_of_token
    (h : sampler.sample (logitsFor params history) = .ok (token, sampler'))
    (htoken : token ≠ endOfGeneration) :
    sequential params (budget + 1) history sampler =
      (token :: (sequential params budget (history ++ [token]) sampler').1,
        (sequential params budget (history ++ [token]) sampler').2) := by
  rw [sequential, h]
  exact if_neg htoken

theorem isTerminal_sequential (params : ByteModel.Params) (budget : Nat) (history : List Token)
    (sampler : Sampler) : (sequential params budget history sampler).2.isTerminal = true := by
  induction budget generalizing history sampler with
  | zero => rfl
  | succ budget ih =>
    rcases hsample : sampler.sample (logitsFor params history) with e | ⟨token, sampler'⟩
    · rw [sequential_of_error hsample]
      rfl
    · by_cases htoken : token = endOfGeneration
      · subst htoken
        rw [sequential_of_end hsample]
        rfl
      · rw [sequential_of_token hsample htoken]
        exact ih ..

end Sequential

/-! ### Events -/

/-- The event for what comes out of a decoder, if something does. -/
def chunkOf : Except Error (Option String) → List StreamEvent
  | .ok (some text) => [.chunk text]
  | _ => []

/-- The last events of a generation: the text that is still held, unless the end is an error, and
the terminal event. -/
def closing (b : Backend) (decoder : DeltaDecoder) (ending : StreamEvent) : List StreamEvent :=
  match ending with
  | .done _ => chunkOf (decoder.flush b.detokenize).2 ++ [ending]
  | _ => [ending]

/-- The events of a generation that has produced these tokens. A token that ends the generation has
no text. -/
def transcript (b : Backend) (decoder : DeltaDecoder) :
    List Token → StreamEvent → List StreamEvent
  | [], ending => closing b decoder ending
  | token :: rest, ending =>
      if b.isEndOfGeneration token then transcript b decoder rest ending
      else
        chunkOf (decoder.push b.detokenize token).2 ++
          transcript b (decoder.push b.detokenize token).1 rest ending

theorem mem_transcript (b : Backend) (decoder : DeltaDecoder) (tokens : List Token)
    (ending : StreamEvent) : ending ∈ transcript b decoder tokens ending := by
  induction tokens generalizing decoder with
  | nil =>
    unfold transcript closing
    split
    · exact List.mem_append_right _ (List.mem_singleton_self _)
    · exact List.mem_singleton_self _
  | cons token rest ih =>
    rw [transcript]
    split_ifs
    · exact ih decoder
    · exact List.mem_append_right _ (ih _)

/-! ### Streams with room and a listener -/

/-- The stream after what comes out of a decoder was offered to it. -/
def Stream.tell (s : Stream) : Except Error (Option String) → Stream
  | .ok (some text) => (s.offer text).2
  | _ => s

namespace Stream

variable {s : Stream} {output : Except Error (Option String)}

theorem offer_of_room (hopen : s.handleOpen = true) (hroom : 2 ≤ s.room) (text : String) :
    s.offer text = (.sent, s.put (.chunk text)) := by
  rw [offer, hopen, if_neg (by decide), if_neg (Nat.not_lt_of_le hroom)]

theorem handleOpen_tell (s : Stream) (output : Except Error (Option String)) :
    (s.tell output).handleOpen = s.handleOpen := by
  unfold tell
  split
  · exact (s.extends_offer _).handleOpen
  · rfl

theorem log_tell (hopen : s.handleOpen = true) (hroom : 2 ≤ s.room ∨ chunkOf output = []) :
    (s.tell output).log = s.log ++ chunkOf output := by
  unfold tell chunkOf at *
  split at hroom
  · have hroom := hroom.resolve_right (List.cons_ne_nil _ _)
    rw [offer_of_room hopen hroom]
    rfl
  · exact (List.append_nil _).symm

end Stream

namespace Generation

variable {b : Backend} {g : Generation} {s : Stream} {token : Token}

theorem flushTo_eq_tell (b : Backend) (g : Generation) (s : Stream) :
    g.flushTo b s = s.tell (g.decoder.flush b.detokenize).2 := by
  unfold flushTo Stream.tell
  rfl

/-- **A generation that ends says everything**, if what is held finds room. -/
theorem log_close (hflow : s.Flowing) (hopen : s.handleOpen = true)
    (hroom : 2 ≤ s.room ∨ g.decoder.held = []) (ending : StreamEvent) :
    (g.close b ending s).log = s.log ++ closing b g.decoder ending := by
  cases ending with
  | done reason =>
    have hroom' : 2 ≤ s.room ∨ chunkOf (g.decoder.flush b.detokenize).2 = [] :=
      hroom.imp_right fun hheld => by
        rw [g.decoder.flush_of_held_eq_nil hheld]
        rfl
    have hopen' : (g.flushTo b s).handleOpen = true := by
      rw [flushTo_eq_tell, Stream.handleOpen_tell, hopen]
    rw [close, (flowing_flushTo hflow).finish_log, if_pos hopen', flushTo_eq_tell,
      Stream.log_tell hopen hroom', List.append_assoc, closing]
  | chunk text => exact (hflow.finish_log _).trans (if_pos hopen)
  | error cause => exact (hflow.finish_log _).trans (if_pos hopen)

/-- A token that ends the generation is not text. -/
theorem advance_of_end (htoken : b.isEndOfGeneration token = true) (s : Stream) :
    g.advance b token s = (some (.done .endOfGeneration), g.spend, s) := by
  rw [advance, if_pos htoken]

/-- Any other token goes through the decoder, and what comes out is sent. After that there is room
for more, or nothing is held that would need it. -/
theorem advance_of_room (htoken : b.isEndOfGeneration token = false)
    (htext : ∀ e, (g.decoder.push b.detokenize token).2 ≠ .error e)
    (hflow : s.Flowing) (hopen : s.handleOpen = true) (hroom : 2 ≤ s.room) :
    ∃ s', g.advance b token s =
        (if g.spend.budget = 0 then some (.done .length) else none,
          { g.spend with decoder := (g.decoder.push b.detokenize token).1 }, s') ∧
      s'.Flowing ∧ s'.handleOpen = true ∧
      s'.log = s.log ++ chunkOf (g.decoder.push b.detokenize token).2 ∧
      (2 ≤ s'.room ∨ (g.decoder.push b.detokenize token).1.held = []) := by
  rw [advance, if_neg (by rw [htoken]; exact Bool.false_ne_true)]
  have hne := g.decoder.push_ne_empty b.detokenize token
  rcases hpush : g.decoder.push b.detokenize token with ⟨decoder, e | _ | text⟩
  · rw [hpush] at htext
    exact absurd rfl (htext e)
  · exact ⟨s, rfl, hflow, hopen, (List.append_nil _).symm, Or.inl hroom⟩
  · have hempty := DeltaDecoder.push_of_text (congrArg Prod.snd hpush)
    rw [hpush] at hempty hne
    have hflow' := hflow.offer (hne text rfl)
    dsimp only
    rw [Stream.offer_of_room hopen hroom] at hflow' ⊢
    exact ⟨_, rfl, hflow', hopen, rfl, Or.inr (congrArg DeltaDecoder.held hempty)⟩

end Generation

end Turnwise
