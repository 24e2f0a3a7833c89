import Mathlib.Data.List.ReduceOption
import Turnwise.Proofs.ByteModel.Text
import Turnwise.Proofs.DeltaDecoder

/-!
# Texts of blocks

What comes out of a delta decoder is the text of the blocks that it cuts the tokens into, each block
by itself (`Readable.exists_answers_eq`), and this for any way to find out texts. It need not
succeed on more than a few tokens in succession: a block has as many tokens as may be held at most.

One token carries this on (`Readable.push_cases`). Either it is held with the others, and then fewer
are held than may be, or all of them are let go. They are not let go with a text that ends in the
middle of a character unless the limit is reached. A shorter block whose text does end there can
only be the last one, which the flush lets go (`texts_of_blocks`).
-/

namespace Turnwise.DeltaDecoder

variable {detokenize : List Token → Except Error String} {text : List Token → String}
  {decoder : DeltaDecoder} {token : Token} {tokens rest : List Token}

/-- What a decoder holds can be read together with the tokens that come: every few of them in
succession have a text. -/
structure Readable (detokenize : List Token → Except Error String) (text : List Token → String)
    (decoder : DeltaDecoder) (tokens : List Token) : Prop where
  text_eq : ∀ block, block <:+: decoder.held ++ tokens → block ≠ [] →
    block.length ≤ maxHeldTokens → detokenize block = .ok (text block)
  length_lt : decoder.held.length < maxHeldTokens

namespace Readable

/-- **One token** is held, or lets go what is held. -/
theorem push_cases (h : Readable detokenize text decoder (token :: rest)) :
    (decoder.push detokenize token = ({ held := decoder.held ++ [token] }, .ok none) ∧
      Readable detokenize text { held := decoder.held ++ [token] } rest) ∨
    (decoder.push detokenize token = ({}, .ok (nonempty (text (decoder.held ++ [token])))) ∧
      (endsIncomplete (text (decoder.held ++ [token])) = true →
        (decoder.held ++ [token]).length = maxHeldTokens) ∧
      Readable detokenize text {} rest) := by
  obtain ⟨htext, hlt⟩ := h
  rw [List.append_cons] at htext
  have hle : (decoder.held ++ [token]).length ≤ maxHeldTokens := by
    rw [List.length_append]
    exact hlt
  have hpush := push_of_ok (htext _ (List.prefix_append _ rest).isInfix
    (List.append_ne_nil_of_right_ne_nil _ (List.cons_ne_nil _ _)) hle)
  split_ifs at hpush with hkept
  -- The tokens that are held and those that come make up the same list as before.
  · refine .inl ⟨hpush, htext, ?_⟩
    rw [List.length_append]
    exact hkept.2
  · refine .inr ⟨hpush, fun hends => Nat.le_antisymm hle ?_, fun block hblock => ?_, by decide⟩
    · rw [List.length_append]
      exact Nat.le_of_not_lt fun hlt => hkept ⟨hends, hlt⟩
    · exact htext block (hblock.trans (List.suffix_append _ rest).isInfix)

/-- What is held after some of the tokens can be read together with the others. -/
theorem pushAll {after : List Token} (h : Readable detokenize text decoder (tokens ++ after)) :
    Readable detokenize text (decoder.pushAll detokenize tokens).2 after := by
  induction tokens generalizing decoder with
  | nil => exact h
  | cons token rest ih =>
    rw [DeltaDecoder.pushAll]
    rcases h.push_cases with ⟨hpush, hnext⟩ | ⟨hpush, -, hnext⟩ <;> rw [hpush] <;> exact ih hnext

theorem flush (h : Readable detokenize text decoder []) :
    decoder.flush detokenize =
      ({}, .ok (if decoder.held = [] then none else nonempty (text decoder.held))) := by
  obtain ⟨held⟩ := decoder
  by_cases hempty : held = []
  · subst hempty
    rfl
  · have htext := h.text_eq held (by simp) hempty (Nat.le_of_lt h.length_lt)
    rw [DeltaDecoder.flush, if_neg (by simpa using hempty), htext, if_neg hempty]

/-- No block is longer than what may be held at most. -/
theorem length_of_mem_blocks (h : Readable detokenize text decoder tokens) :
    ∀ block ∈ decoder.blocks detokenize tokens,
      block ≠ [] ∧ block.length ≤ maxHeldTokens := by
  induction tokens generalizing decoder with
  | nil =>
    rw [blocks]
    split_ifs with hempty
    · exact List.forall_mem_nil _
    · exact List.forall_mem_singleton.mpr ⟨hempty, Nat.le_of_lt h.length_lt⟩
  | cons token rest ih =>
    rcases h.push_cases with ⟨hpush, hnext⟩ | ⟨hpush, -, hnext⟩
    · rw [blocks_of_held (by rw [hpush]), hpush]
      exact ih hnext
    · rw [blocks_of_released (by rw [hpush])]
      refine List.forall_mem_cons.mpr ⟨⟨?_, ?_⟩, ih hnext⟩
      · exact List.append_ne_nil_of_right_ne_nil _ (List.cons_ne_nil _ _)
      · rw [List.length_append]
        exact h.length_lt

/-- **What comes out is the text of the blocks**, each by itself, as far as they have one. -/
theorem exists_answers_eq (h : Readable detokenize text decoder tokens) :
    ∃ texts : List (Option String), decoder.answers detokenize tokens = texts.map .ok ∧
      texts.reduceOption =
        ((decoder.blocks detokenize tokens).map text).filterMap nonempty := by
  induction tokens generalizing decoder with
  | nil =>
    -- The flush answers for the last block, the one that no push has let go.
    refine ⟨[if decoder.held = [] then none else nonempty (text decoder.held)], ?_, ?_⟩
    · rw [answers, DeltaDecoder.pushAll, h.flush]
      rfl
    · rw [blocks]
      split_ifs <;> rfl
  | cons token rest ih =>
    have hanswers : decoder.answers detokenize (token :: rest) =
        (decoder.push detokenize token).2 ::
          (decoder.push detokenize token).1.answers detokenize rest := rfl
    rcases h.push_cases with ⟨hpush, hnext⟩ | ⟨hpush, -, hnext⟩
    · obtain ⟨texts, htexts, hout⟩ := ih hnext
      refine ⟨none :: texts, ?_, ?_⟩
      · rw [hanswers, hpush, htexts]
        rfl
      · rw [blocks_of_held (by rw [hpush]), hpush, List.reduceOption_cons_of_none, hout]
    · obtain ⟨texts, htexts, hout⟩ := ih hnext
      refine ⟨nonempty (text (decoder.held ++ [token])) :: texts, ?_, ?_⟩
      · rw [hanswers, hpush, htexts]
        rfl
      · rw [blocks_of_released (by rw [hpush]), List.map_cons, List.filterMap_cons, ← hout]
        rfl

/-- A text that comes out with a token is that of the block which this token ends. If it ends in
the middle of a character, the limit is reached. -/
theorem block_of_push {before after : List Token}
    (h : Readable detokenize text decoder (before ++ token :: after)) {chunk : String}
    (hchunk : ((decoder.pushAll detokenize before).2.push detokenize token).2 = .ok (some chunk)) :
    let block := (decoder.pushAll detokenize before).2.held ++ [token]
    (∃ earlier later, decoder.blocks detokenize (before ++ token :: after) =
        earlier ++ block :: later ∧ later.flatten = after) ∧
      chunk = text block ∧ (endsIncomplete chunk = true → block.length = maxHeldTokens) := by
  intro block
  rcases h.pushAll.push_cases with ⟨hpush, -⟩ | ⟨hpush, hlength, -⟩
  · rw [hpush] at hchunk
    cases hchunk
  · obtain ⟨earlier, hsplit⟩ := suffix_blocks_of_released (congrArg Prod.fst hpush) after
    rw [hpush] at hchunk
    obtain rfl := eq_of_nonempty (Except.ok.inj hchunk)
    exact ⟨⟨earlier, _, hsplit.symm, flatten_blocks {} after⟩, rfl, hlength⟩

end Readable

theorem filterMap_nonempty (texts : List String) :
    texts.filterMap nonempty = texts.filter (· ≠ "") := by
  rw [← List.filterMap_eq_filter]
  refine List.filterMap_congr fun text _ => ?_
  simp [nonempty, Option.guard]

theorem join_filterMap_nonempty (texts : List String) :
    String.join (texts.filterMap nonempty) = String.join texts := by
  induction texts with
  | nil => rfl
  | cons text rest ih =>
    rw [List.filterMap_cons, String.join_cons, ← ih]
    by_cases h : text.isEmpty = true
    · rw [nonempty, if_pos h, String.isEmpty_iff.mp h, String.empty_append]
    · rw [nonempty, if_neg h, String.join_cons]

/-- **No token is lost, repeated or put elsewhere.** For any way to find out texts that succeeds on
every few of the tokens in succession: the tokens are cut into blocks of one to four, in their
order, and what comes out of the pushes and the flush is the texts of the blocks, those that are not
empty. Between two calls at most three tokens are held. What a push gives is the text of the block
that its token ends, and it ends with a replacement character only if the block has four tokens.
After the flush nothing is held, and another one gives nothing. -/
theorem texts_of_blocks
    (htext : ∀ block, block <:+: tokens → block ≠ [] → block.length ≤ 4 →
      detokenize block = .ok (text block)) :
    let cut := blocks detokenize {} tokens
    let flushed := ((pushAll detokenize {} tokens).2.flush detokenize).1
    (cut.flatten = tokens ∧ ∀ block ∈ cut, 1 ≤ block.length ∧ block.length ≤ 4) ∧
    (∃ texts : List (Option String), answers detokenize {} tokens = texts.map .ok ∧
      texts.reduceOption = (cut.map text).filter (· ≠ "")) ∧
    (∀ before, before <+: tokens → (pushAll detokenize {} before).2.held.length ≤ 3) ∧
    (∀ before token after chunk, tokens = before ++ token :: after →
      ((pushAll detokenize {} before).2.push detokenize token).2 = .ok (some chunk) →
        let block := (pushAll detokenize {} before).2.held ++ [token]
        (∃ earlier later, cut = earlier ++ block :: later ∧ later.flatten = after) ∧
          chunk = text block ∧
          (chunk.toList.getLast? = some Utf8.replacement → block.length = 4)) ∧
    flushed.held = [] ∧ (flushed.flush detokenize).2 = .ok none := by
  intro cut flushed
  have h : Readable detokenize text {} tokens := ⟨htext, by decide⟩
  have hflushed : flushed.held = [] := by
    have hrest : Readable detokenize text (pushAll detokenize {} tokens).2 [] :=
      Readable.pushAll (by rwa [List.append_nil])
    rw [show flushed = _ from congrArg Prod.fst hrest.flush]
  refine ⟨⟨flatten_blocks {} tokens, fun block hblock => ?_⟩, ?_, ?_, ?_, hflushed,
    flush_of_held_eq_nil hflushed detokenize⟩
  · obtain ⟨hne, hle⟩ := h.length_of_mem_blocks block hblock
    exact ⟨List.length_pos_iff.mpr hne, hle⟩
  · obtain ⟨texts, hanswers, hout⟩ := h.exists_answers_eq
    exact ⟨texts, hanswers, hout.trans (filterMap_nonempty _)⟩
  · rintro before ⟨after, rfl⟩
    exact Nat.le_of_lt_succ h.pushAll.length_lt
  · rintro before token after chunk rfl hchunk
    obtain ⟨hblock, htext, hlength⟩ := h.block_of_push hchunk
    exact ⟨hblock, htext, fun hends => hlength (by rw [endsIncomplete, hends]; rfl)⟩

/-- An end of a generation has no text. Of the bytes after it none begins a character, and they are
let go when there are four; the last one begins a character that does not come. -/
theorem texts_of_blocks_broken :
    let tokens : List Token := [0x61, 256, 0x80, 0x80, 0x80, 0x80, 0xE2]
    let text := fun block => Utf8.decodeLossy (ByteModel.byteValues block)
    (∀ block, block <:+: tokens → block ≠ [] → block.length ≤ 4 →
      ByteModel.detokenize block = .ok (text block)) ∧
    blocks ByteModel.detokenize {} tokens =
      [[0x61], [256], [0x80, 0x80, 0x80, 0x80], [0xE2]] ∧
    ∃ texts : List (Option String),
      answers ByteModel.detokenize {} tokens = texts.map .ok ∧
        texts.reduceOption = ["a", "\uFFFD\uFFFD\uFFFD\uFFFD", "\uFFFD"] := by
  intro tokens text
  have htokens : ∀ token ∈ tokens, token ≤ ByteModel.endOfGeneration := by decide
  have htext : ∀ block, block <:+: tokens → block ≠ [] → block.length ≤ 4 →
      ByteModel.detokenize block = .ok (text block) := fun block hblock _ _ =>
    ByteModel.detokenize_of_le fun token htoken => htokens token (hblock.subset htoken)
  obtain ⟨-, ⟨texts, hanswers, hout⟩, -⟩ := texts_of_blocks htext
  exact ⟨htext, by decide +kernel, texts, hanswers, hout.trans (by decide +kernel)⟩

end Turnwise.DeltaDecoder
