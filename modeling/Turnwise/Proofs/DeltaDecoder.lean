import Mathlib.Data.List.Infix
import Turnwise.DeltaDecoder

/-!
# What a delta decoder gives out

The texts that come out of a decoder are never empty, and while text comes out nothing is held back.

In the course of many tokens a decoder cuts them into blocks (`DeltaDecoder.blocks`), those that it
lets go together. No token is lost or comes in another place (`flatten_blocks`).
-/

namespace Turnwise.DeltaDecoder

theorem ne_empty_of_nonempty {text text' : String} (h : nonempty text = some text') :
    text' ≠ "" := by
  unfold nonempty at h
  split at h
  · cases h
  · rename_i hne
    obtain rfl := Option.some.inj h
    rintro rfl
    exact hne rfl

theorem eq_of_nonempty {text text' : String} (h : nonempty text = some text') : text = text' := by
  unfold nonempty at h
  split at h
  · cases h
  · exact Option.some.inj h

theorem push_ne_empty (decoder : DeltaDecoder) (detokenize : List Token → Except Error String)
    (token : Token) (text : String) (h : (decoder.push detokenize token).2 = .ok (some text)) :
    text ≠ "" := by
  unfold push at h
  dsimp only at h
  split at h
  · cases h
  · split at h
    · cases h
    · exact ne_empty_of_nonempty (Except.ok.inj h)

theorem flush_ne_empty (decoder : DeltaDecoder) (detokenize : List Token → Except Error String)
    (text : String) (h : (decoder.flush detokenize).2 = .ok (some text)) : text ≠ "" := by
  unfold flush at h
  split at h
  · cases h
  · split at h
    · cases h
    · exact ne_empty_of_nonempty (Except.ok.inj h)

/-- When text comes out, nothing is held back. -/
theorem push_of_text {decoder : DeltaDecoder} {detokenize : List Token → Except Error String}
    {token : Token} {text : String} (h : (decoder.push detokenize token).2 = .ok (some text)) :
    (decoder.push detokenize token).1 = {} := by
  unfold push at h ⊢
  dsimp only at h ⊢
  split at h
  · cases h
  · split at h
    · cases h
    · rename_i hcomplete
      rw [if_neg hcomplete]

/-- Only tokens that were pushed are held. -/
theorem held_push (decoder : DeltaDecoder) (detokenize : List Token → Except Error String)
    (token : Token) : (decoder.push detokenize token).1.held ⊆ decoder.held ++ [token] := by
  unfold push
  dsimp only
  split
  · exact List.Subset.refl _
  · split
    · exact List.Subset.refl _
    · exact List.nil_subset _

/-- A token fails only if the text of the held tokens with it cannot be found out. -/
theorem push_ne_error {decoder : DeltaDecoder} {detokenize : List Token → Except Error String}
    {token : Token} {text : String} (h : detokenize (decoder.held ++ [token]) = .ok text)
    (e : Error) : (decoder.push detokenize token).2 ≠ .error e := by
  unfold push
  dsimp only
  rw [h]
  dsimp only
  split <;> exact nofun

/-- Nothing comes out at the end if nothing is held. -/
theorem flush_of_held_eq_nil {decoder : DeltaDecoder} (h : decoder.held = [])
    (detokenize : List Token → Except Error String) :
    (decoder.flush detokenize).2 = .ok none := by
  unfold flush
  rw [h]
  rfl

/-- What a token does if the text of the held tokens with it can be found out. -/
theorem push_of_ok {decoder : DeltaDecoder} {detokenize : List Token → Except Error String}
    {token : Token} {text : String} (h : detokenize (decoder.held ++ [token]) = .ok text) :
    decoder.push detokenize token =
      if endsIncomplete text = true ∧ decoder.held.length + 1 < maxHeldTokens then
        ({ held := decoder.held ++ [token] }, .ok none)
      else ({}, .ok (nonempty text)) := by
  unfold push
  dsimp only
  rw [h, List.length_append, List.length_singleton]
  simp only [Bool.and_eq_true, decide_eq_true_eq]

/-- A token is held with those before it, or all of them are let go. -/
theorem held_push_eq (decoder : DeltaDecoder) (detokenize : List Token → Except Error String)
    (token : Token) : (decoder.push detokenize token).1.held = decoder.held ++ [token] ∨
      (decoder.push detokenize token).1 = {} := by
  unfold push
  dsimp only
  split
  · exact .inl rfl
  · split
    · exact .inl rfl
    · exact .inr rfl

/-! ### Many tokens -/

section Runs

variable (detokenize : List Token → Except Error String)

/-- The answers to tokens that are pushed one by one, and the decoder after them. -/
def pushAll (decoder : DeltaDecoder) :
    List Token → List (Except Error (Option String)) × DeltaDecoder
  | [] => ([], decoder)
  | token :: rest =>
      ((decoder.push detokenize token).2 ::
          ((decoder.push detokenize token).1.pushAll rest).1,
        ((decoder.push detokenize token).1.pushAll rest).2)

/-- The answers to tokens that are pushed one by one, and to the flush after them. -/
def answers (decoder : DeltaDecoder) (tokens : List Token) : List (Except Error (Option String)) :=
  (decoder.pushAll detokenize tokens).1 ++
    [((decoder.pushAll detokenize tokens).2.flush detokenize).2]

/-- The tokens that are let go together. What is held at the end is a block as well. -/
def blocks (decoder : DeltaDecoder) : List Token → List (List Token)
  | [] => if decoder.held = [] then [] else [decoder.held]
  | token :: rest =>
      if (decoder.push detokenize token).1.held = [] then
        (decoder.held ++ [token]) :: (decoder.push detokenize token).1.blocks rest
      else (decoder.push detokenize token).1.blocks rest

variable {detokenize} {decoder : DeltaDecoder} {token : Token} {tokens : List Token}

theorem pushAll_append (decoder : DeltaDecoder) (tokens tokens' : List Token) :
    decoder.pushAll detokenize (tokens ++ tokens') =
      ((decoder.pushAll detokenize tokens).1 ++
          ((decoder.pushAll detokenize tokens).2.pushAll detokenize tokens').1,
        ((decoder.pushAll detokenize tokens).2.pushAll detokenize tokens').2) := by
  induction tokens generalizing decoder with
  | nil => rfl
  | cons token rest ih => rw [List.cons_append, pushAll, ih, pushAll, List.cons_append]

theorem blocks_of_held (h : (decoder.push detokenize token).1.held = decoder.held ++ [token])
    (rest : List Token) : decoder.blocks detokenize (token :: rest) =
      (decoder.push detokenize token).1.blocks detokenize rest := by
  rw [blocks, if_neg]
  rw [h]
  exact List.append_ne_nil_of_right_ne_nil _ (List.cons_ne_nil _ _)

theorem blocks_of_released (h : (decoder.push detokenize token).1 = {}) (rest : List Token) :
    decoder.blocks detokenize (token :: rest) =
      (decoder.held ++ [token]) :: blocks detokenize {} rest := by
  rw [blocks, h, if_pos rfl]

/-- **Nothing is lost and nothing changes places.** -/
theorem flatten_blocks (decoder : DeltaDecoder) (tokens : List Token) :
    (decoder.blocks detokenize tokens).flatten = decoder.held ++ tokens := by
  induction tokens generalizing decoder with
  | nil =>
    rw [blocks]
    split
    · rename_i h
      rw [h]
      rfl
    · simp
  | cons token rest ih =>
    rcases held_push_eq decoder detokenize token with h | h
    · rw [blocks_of_held h, ih, h, List.append_assoc, List.singleton_append]
    · rw [blocks_of_released h, List.flatten_cons, ih, List.nil_append, List.append_assoc,
        List.singleton_append]

/-- Only tokens that were pushed are held. -/
theorem held_pushAll (decoder : DeltaDecoder) (tokens : List Token) :
    (decoder.pushAll detokenize tokens).2.held ⊆ decoder.held ++ tokens := by
  induction tokens generalizing decoder with
  | nil => exact List.subset_append_left _ _
  | cons token rest ih =>
    intro other hother
    rcases List.mem_append.mp (ih _ hother) with hheld | hrest
    · have hpushed := held_push decoder detokenize token hheld
      rw [List.append_cons]
      exact List.mem_append_left rest hpushed
    · exact List.mem_append_right _ (List.mem_cons_of_mem token hrest)

/-- A block that others come after is let go when its last token comes. -/
theorem exists_of_suffix_blocks {block : List Token} {later : List (List Token)}
    (h : block :: later <:+ decoder.blocks detokenize tokens) (hlater : later ≠ []) :
    ∃ before token, tokens = before ++ token :: later.flatten ∧
      block = (decoder.pushAll detokenize before).2.held ++ [token] ∧
      ((decoder.pushAll detokenize before).2.push detokenize token).1 = {} := by
  induction tokens generalizing decoder with
  | nil =>
    rw [blocks] at h
    split at h
    · cases List.suffix_nil.mp h
    · have hle := h.length_le
      rw [List.length_cons, List.length_singleton] at hle
      exact absurd (List.length_eq_zero_iff.mp (by omega)) hlater
  | cons token rest ih =>
    rcases held_push_eq decoder detokenize token with hheld | hreleased
    · rw [blocks_of_held hheld] at h
      obtain ⟨before, last, hrest, hlast⟩ := ih h
      exact ⟨token :: before, last, by rw [hrest, List.cons_append], hlast⟩
    · rw [blocks_of_released hreleased] at h
      rcases List.suffix_cons_iff.mp h with heq | h
      · obtain ⟨rfl, rfl⟩ := List.cons.inj heq
        exact ⟨[], token, by rw [flatten_blocks]; rfl, rfl, hreleased⟩
      · obtain ⟨before, last, hrest, hlast⟩ := ih h
        refine ⟨token :: before, last, by rw [hrest, List.cons_append], ?_⟩
        rw [pushAll, hreleased]
        exact hlast

/-- A token that lets go what is held ends a block. -/
theorem suffix_blocks_of_released {before : List Token}
    (h : ((decoder.pushAll detokenize before).2.push detokenize token).1 = {})
    (after : List Token) :
    ((decoder.pushAll detokenize before).2.held ++ [token]) :: blocks detokenize {} after <:+
      decoder.blocks detokenize (before ++ token :: after) := by
  induction before generalizing decoder with
  | nil =>
    have hreleased : (decoder.push detokenize token).1 = {} := h
    rw [List.nil_append, blocks_of_released hreleased]
    exact List.suffix_refl _
  | cons first before ih =>
    rw [List.cons_append]
    rcases held_push_eq decoder detokenize first with hheld | hreleased
    · rw [blocks_of_held hheld]
      exact ih h
    · rw [pushAll, hreleased] at h ⊢
      rw [blocks_of_released hreleased]
      exact (ih h).trans (List.suffix_cons _ _)

end Runs

end Turnwise.DeltaDecoder
