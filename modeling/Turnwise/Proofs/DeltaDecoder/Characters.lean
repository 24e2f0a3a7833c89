import Turnwise.Proofs.ByteModel.Text
import Turnwise.Proofs.DeltaDecoder.Blocks

/-!
# Characters out of a delta decoder

The decoder of a generation of the byte model sees one byte at a time. The bytes of a character are
held back until the last one comes, and then the character comes out
(`DeltaDecoder.characters_streamed`): a character has four bytes at most, so the limit on what is
held is not reached before.

The replacement character is the exception. When it comes in a text it looks like a character that
is incomplete, so it is held back, and the bytes of the next character are held with it. Then the
limit may be reached in the middle of that character (`CutsCharacter`). The same happens after bytes
that are not text. That is the only way in which text that comes piece by piece can differ from
text that is decoded at once (`DeltaDecoder.joined_eq_iff`).
-/

namespace Turnwise.DeltaDecoder

open ByteModel (byteValues detokenize endOfGeneration tokenize)
open Utf8 (Partial Spells Severs Unsevered feed feedAll replacement)

/-! ### One character -/

/-- What is held is the beginning of a character. -/
structure Holds (decoder : DeltaDecoder) (state : Option Partial) : Prop where
  tokens : ∀ token ∈ decoder.held, token ≤ endOfGeneration
  state : feedAll none (byteValues decoder.held) = ([], state)

variable {decoder : DeltaDecoder} {state : Option Partial} {p : Partial} {byte : UInt8}
  {bytes : List UInt8} {c : Char}

theorem holds_empty : Holds {} none := ⟨nofun, rfl⟩

theorem le_endOfGeneration_toNat (byte : UInt8) : byte.toNat ≤ endOfGeneration :=
  Nat.le_of_lt byte.toNat_lt

namespace Holds

theorem forall_le (h : decoder.Holds state) (byte : UInt8) :
    ∀ token ∈ decoder.held ++ [byte.toNat], token ≤ endOfGeneration :=
  List.forall_mem_append.mpr
    ⟨h.tokens, List.forall_mem_singleton.mpr (le_endOfGeneration_toNat byte)⟩

/-- The text of what is held with one more byte. -/
theorem detokenize_eq (h : decoder.Holds state) (byte : UInt8) :
    detokenize (decoder.held ++ [byte.toNat]) =
      .ok (String.ofList (Utf8.decodeFrom state [byte])) := by
  rw [ByteModel.detokenize_of_le (h.forall_le byte), ByteModel.byteValues_append,
    ByteModel.byteValues_singleton, Utf8.decodeLossy, Utf8.decodeFrom_append, h.state,
    List.nil_append]

/-- A byte in the middle of a character is held. -/
theorem push_next (h : decoder.Holds state) (hfeed : feed state byte = ([], some p))
    (hlength : decoder.held.length + 1 < maxHeldTokens) :
    decoder.push detokenize byte.toNat = ({ held := decoder.held ++ [byte.toNat] }, .ok none) ∧
      Holds { held := decoder.held ++ [byte.toNat] } (some p) := by
  have htext : Utf8.decodeFrom state [byte] = [replacement] := by
    rw [Utf8.decodeFrom, hfeed]
    rfl
  refine ⟨?_, h.forall_le byte, ?_⟩
  · rw [push_of_ok (h.detokenize_eq byte), htext, if_pos ⟨by decide, hlength⟩]
  · rw [ByteModel.byteValues_append, ByteModel.byteValues_singleton, Utf8.feedAll_append, h.state]
    simp only [feedAll, hfeed, List.append_nil]

/-- The last byte of a character lets it go. -/
theorem push_last (h : decoder.Holds state) (hfeed : feed state byte = ([c], none))
    (hc : c ≠ replacement) :
    decoder.push detokenize byte.toNat = ({}, .ok (some (String.singleton c))) := by
  have htext : Utf8.decodeFrom state [byte] = [c] := by
    rw [Utf8.decodeFrom, hfeed]
    rfl
  have hends : endsIncomplete (String.ofList [c]) = false := by
    simpa [endsIncomplete] using hc
  rw [push_of_ok (h.detokenize_eq byte), htext, hends,
    if_neg (fun hkept => Bool.false_ne_true hkept.1), nonempty, String.singleton_eq_ofList, if_neg]
  simp [String.isEmpty_iff]

end Holds

/-- The answers to the bytes of a character: nothing until the last one completes it. -/
def announcement (c : Char) : List (Except Error (Option String)) :=
  List.replicate (c.utf8Size - 1) (.ok none) ++ [.ok (some (String.singleton c))]

/-- Pushing the bytes that are missing of a character gives the character with the last of them, and
they are let go together, whatever comes next. -/
theorem run_of_spells (h : Spells state bytes c) (hc : c ≠ replacement)
    (hheld : decoder.Holds state) (hlength : decoder.held.length + bytes.length ≤ maxHeldTokens) :
    decoder.pushAll detokenize (bytes.map UInt8.toNat) =
        (List.replicate (bytes.length - 1) (.ok none) ++ [.ok (some (String.singleton c))], {}) ∧
      ∀ tokens, decoder.blocks detokenize (bytes.map UInt8.toNat ++ tokens) =
        (decoder.held ++ bytes.map UInt8.toNat) :: blocks detokenize {} tokens := by
  induction h generalizing decoder with
  | last hfeed =>
    have hpush := hheld.push_last hfeed hc
    rw [List.map_singleton]
    refine ⟨?_, fun tokens => ?_⟩
    · rw [pushAll, hpush]
      rfl
    · rw [List.singleton_append, blocks_of_released (by rw [hpush])]
  | @next state byte p rest c hfeed hrest ih =>
    -- At least one byte is missing after this one, so the limit is not reached with it.
    have hpos := List.length_pos_of_ne_nil hrest.ne_nil
    rw [List.length_cons] at hlength
    obtain ⟨hpush, hnext⟩ := hheld.push_next hfeed (by omega)
    obtain ⟨hanswers, hblocks⟩ := ih hc hnext (by
      rw [List.length_append, List.length_singleton]
      omega)
    rw [List.map_cons]
    refine ⟨?_, fun tokens => ?_⟩
    · obtain ⟨count, hcount⟩ := Nat.exists_eq_add_of_lt hpos
      rw [pushAll, hpush, hanswers, List.length_cons, hcount]
      rfl
    · rw [List.cons_append, blocks_of_held (by rw [hpush]), hpush, hblocks, List.append_assoc,
        List.singleton_append]

theorem length_encode_le (c : Char) : (String.utf8EncodeChar c).length ≤ maxHeldTokens := by
  rw [String.length_utf8EncodeChar]
  exact c.utf8Size_le_four

/-! ### Texts without the replacement character -/

/-- The tokens of some characters. -/
def tokensOf (chars : List Char) : List Token :=
  (chars.flatMap String.utf8EncodeChar).map UInt8.toNat

theorem tokensOf_cons (c : Char) (chars : List Char) :
    tokensOf (c :: chars) = (String.utf8EncodeChar c).map UInt8.toNat ++ tokensOf chars := by
  rw [tokensOf, List.flatMap_cons, List.map_append, tokensOf]

theorem tokensOf_append (chars chars' : List Char) :
    tokensOf (chars ++ chars') = tokensOf chars ++ tokensOf chars' := by
  rw [tokensOf, List.flatMap_append, List.map_append, tokensOf, tokensOf]

theorem byteValues_tokensOf (chars : List Char) :
    byteValues (tokensOf chars) = chars.flatMap String.utf8EncodeChar :=
  ByteModel.byteValues_map_toNat _

theorem pushAll_tokensOf {chars : List Char} (h : replacement ∉ chars) :
    pushAll detokenize {} (tokensOf chars) = (chars.flatMap announcement, {}) := by
  induction chars with
  | nil => rfl
  | cons c rest ih =>
    rw [List.mem_cons, not_or] at h
    obtain ⟨hanswers, -⟩ := run_of_spells (Utf8.spells_encode c) (Ne.symm h.1) holds_empty
      (by simpa using length_encode_le c)
    rw [tokensOf_cons, pushAll_append, hanswers, ih h.2, List.flatMap_cons, announcement,
      String.length_utf8EncodeChar]

/-- The text of an answer. -/
def chunk? : Except Error (Option String) → Option String
  | .ok text? => text?
  | .error _ => none

theorem filterMap_announcement (c : Char) :
    (announcement c).filterMap chunk? = [String.singleton c] := by
  rw [announcement, List.filterMap_append]
  simp [chunk?, List.filterMap_replicate]

/-- **Characters come out one by one.** The bytes of a text without the replacement character are
pushed. A byte that does not complete a character gives nothing, and the one that completes it gives
just this character. Nothing is held in the end. So there are as many chunks as characters, and none
of them has a replacement character in it. -/
theorem characters_streamed (text : String) (htext : replacement ∉ text.toList) :
    let run := pushAll detokenize {} (tokenize text)
    let chunks := run.1.filterMap chunk?
    run.1 = text.toList.flatMap announcement ∧
      run.2.held = [] ∧ (run.2.flush detokenize).2 = .ok none ∧
      chunks = text.toList.map String.singleton ∧ chunks.length = text.length ∧
      ∀ chunk ∈ chunks, replacement ∉ chunk.toList := by
  intro run chunks
  have hrun : run = (text.toList.flatMap announcement, {}) := pushAll_tokensOf htext
  have hchunks : chunks = text.toList.map String.singleton := by
    rw [show chunks = run.1.filterMap chunk? from rfl, hrun, List.filterMap_flatMap]
    simp only [filterMap_announcement]
    exact List.map_eq_flatMap.symm
  refine ⟨by rw [hrun], by rw [hrun], by rw [hrun]; rfl, hchunks, ?_, ?_⟩
  · rw [hchunks, List.length_map, String.length_toList]
  · rw [hchunks]
    intro chunk hchunk
    obtain ⟨c, hc, rfl⟩ := List.mem_map.mp hchunk
    rw [String.toList_singleton, List.mem_singleton]
    rintro rfl
    exact htext hc

/-- Ordinary characters of one and three bytes. -/
theorem characters_streamed_euro :
    replacement ∉ "a€".toList ∧
      pushAll detokenize {} (tokenize "a€") =
        ([.ok (some "a"), .ok none, .ok none, .ok (some "€")], {}) := by
  have htext : replacement ∉ "a€".toList := by decide +kernel
  obtain ⟨hanswers, hheld, -⟩ := characters_streamed "a€" htext
  refine ⟨htext, Prod.ext (hanswers.trans (by decide +kernel)) ?_⟩
  exact congrArg DeltaDecoder.mk hheld

/-! ### Any tokens -/

/-- The limit on what is held is reached in the middle of a character: with some token as many are
held as may be, and the bytes that come after it go on with a character that has begun among
theirs. -/
def CutsCharacter (tokens : List Token) : Prop :=
  ∃ before token after, tokens = before ++ token :: after ∧
    let block := (pushAll detokenize {} before).2.held ++ [token]
    block.length = maxHeldTokens ∧ Severs (byteValues block) (byteValues after)

variable {tokens : List Token}

/-- Bytes and ends of generations can be read whichever they are. -/
theorem readable_of_le (htokens : ∀ token ∈ tokens, token ≤ endOfGeneration) :
    Readable detokenize (fun block => Utf8.decodeLossy (byteValues block)) {} tokens where
  text_eq _ hblock _ _ := ByteModel.detokenize_of_le fun token htoken =>
    htokens token (hblock.subset htoken)
  length_lt := by decide

section Full

variable {before : List Token} {token : Token}
  (htokens : ∀ token' ∈ before ++ [token], token' ≤ endOfGeneration)

include htokens

theorem forall_mem_held_le : ∀ token' ∈ (pushAll detokenize {} before).2.held ++ [token],
    token' ≤ endOfGeneration := by
  intro token' hmem
  refine htokens token' (List.mem_append.mpr ((List.mem_append.mp hmem).imp_left ?_))
  exact fun hmem => held_pushAll {} before hmem

/-- A token with which the limit is reached lets go what is held. -/
theorem push_of_full
    (hlength : ((pushAll detokenize {} before).2.held ++ [token]).length = maxHeldTokens) :
    ((pushAll detokenize {} before).2.push detokenize token).1 = {} := by
  rw [List.length_append, List.length_singleton] at hlength
  rw [push_of_ok (ByteModel.detokenize_of_le (forall_mem_held_le htokens)), if_neg]
  exact fun hkept => Nat.ne_of_lt hkept.2 hlength

/-- If tokens are let go although a character has begun among them, the limit is reached. -/
theorem length_of_released {p : Partial}
    (hreleased : ((pushAll detokenize {} before).2.push detokenize token).1 = {})
    (hstate : (feedAll none
      (byteValues ((pushAll detokenize {} before).2.held ++ [token]))).2 = some p) :
    ((pushAll detokenize {} before).2.held ++ [token]).length = maxHeldTokens := by
  -- The character that has begun comes out as a replacement character, which would be held.
  have hends : endsIncomplete (Utf8.decodeLossy
      (byteValues ((pushAll detokenize {} before).2.held ++ [token]))) = true := by
    rw [endsIncomplete, Utf8.decodeLossy, String.toList_ofList, Utf8.decodeFrom_eq, hstate,
      Utf8.decodeFrom, List.getLast?_concat]
    rfl
  rcases (readable_of_le htokens).pushAll.push_cases with ⟨hpush, -⟩ | ⟨-, hlength, -⟩
  · rw [hpush] at hreleased
    exact absurd (congrArg DeltaDecoder.held hreleased)
      (List.append_ne_nil_of_right_ne_nil _ (List.cons_ne_nil _ _))
  · exact hlength hends

end Full

/-- Unless the limit is reached there, no block ends inside a character. -/
theorem not_cutsCharacter_iff (htokens : ∀ token ∈ tokens, token ≤ endOfGeneration) :
    ¬ CutsCharacter tokens ↔ Unsevered ((blocks detokenize {} tokens).map byteValues) := by
  constructor
  · intro hwhole values valuesAfter hsuffix hsevers
    -- The lists of bytes are those of the blocks, so what comes at their end does as well.
    obtain ⟨before, hblocks⟩ := hsuffix
    obtain ⟨_, suffix, hsplit, -, hsuffix⟩ := List.map_eq_append_iff.mp hblocks.symm
    obtain ⟨block, later, rfl, rfl, rfl⟩ := List.map_eq_cons_iff.mp hsuffix
    have hblock : block :: later <:+ blocks detokenize {} tokens := ⟨_, hsplit.symm⟩
    rw [← ByteModel.byteValues_flatten] at hsevers
    obtain ⟨p, hstate, hcontinues⟩ := Utf8.exists_of_severs hsevers
    have hlater : later ≠ [] := by
      rintro rfl
      exact hcontinues
    obtain ⟨before, token, rfl, rfl, hreleased⟩ := exists_of_suffix_blocks hblock hlater
    rw [List.append_cons] at htokens
    have hlength := length_of_released (List.forall_mem_append.mp htokens).1 hreleased hstate
    exact hwhole ⟨before, token, _, rfl, hlength, hsevers⟩
  · rintro hwhole ⟨before, token, after, rfl, hlength, hsevers⟩
    rw [List.append_cons] at htokens
    have hreleased := push_of_full (List.forall_mem_append.mp htokens).1 hlength
    refine hwhole _ _ ((suffix_blocks_of_released hreleased after).map byteValues) ?_
    rwa [← ByteModel.byteValues_flatten, flatten_blocks, List.nil_append]

/-- The text that comes out piece by piece is the whole text just if no block ends inside a
character. -/
theorem exists_texts (htokens : ∀ token ∈ tokens, token ≤ endOfGeneration) :
    ∃ texts : List (Option String), answers detokenize {} tokens = texts.map .ok ∧
      (String.join texts.reduceOption = Utf8.decodeLossy (byteValues tokens) ↔
        Unsevered ((blocks detokenize {} tokens).map byteValues)) := by
  obtain ⟨texts, hanswers, hout⟩ := (readable_of_le htokens).exists_answers_eq
  refine ⟨texts, hanswers, ?_⟩
  have hjoin : (String.join texts.reduceOption).toList =
      ((blocks detokenize {} tokens).map byteValues).flatMap (Utf8.decodeFrom none) := by
    rw [hout, join_filterMap_nonempty, String.toList_join, List.flatMap_map, List.flatMap_map]
    simp only [Utf8.decodeLossy, String.toList_ofList]
  have hwhole : byteValues tokens = ((blocks detokenize {} tokens).map byteValues).flatten := by
    rw [← ByteModel.byteValues_flatten, flatten_blocks, List.nil_append]
  rw [← String.toList_inj, hjoin, Utf8.decodeLossy, String.toList_ofList, hwhole,
    Utf8.decodeFrom_flatten_iff]

/-! ### Texts with the replacement character -/

/-- No character of several bytes comes right after a replacement character. -/
def Separable (chars : List Char) : Prop := ∀ c, [replacement, c] <:+: chars → c.utf8Size = 1

theorem separable_of_length {chars : List Char} (h : chars.length < 2) : Separable chars :=
  fun _ hinfix => absurd hinfix.length_le (Nat.not_le_of_lt h)

theorem separable_cons_of_ne {chars : List Char} (hc : c ≠ replacement) :
    Separable (c :: chars) ↔ Separable chars := by
  refine forall_congr' fun c' => ?_
  rw [List.infix_cons_iff, List.cons_prefix_cons]
  exact ⟨fun h hinfix => h (.inr hinfix),
    fun h hinfix => h (Or.resolve_left hinfix fun hfirst => hc hfirst.1.symm)⟩

theorem separable_replacement_cons {chars : List Char} :
    Separable (replacement :: c :: chars) ↔ c.utf8Size = 1 ∧ Separable (c :: chars) := by
  constructor
  · exact fun h => ⟨h c ⟨[], chars, rfl⟩, fun c' hinfix =>
      h c' (List.infix_cons_iff.mpr (.inr hinfix))⟩
  · rintro ⟨hc, hrest⟩ c' hinfix
    rcases List.infix_cons_iff.mp hinfix with hfirst | hinfix
    · obtain ⟨-, hsecond⟩ := List.cons_prefix_cons.mp hfirst
      obtain ⟨rfl, -⟩ := List.cons_prefix_cons.mp hsecond
      exact hc
    · exact hrest c' hinfix

/-- A decoder that holds a replacement character. -/
def holdingReplacement : DeltaDecoder := { held := tokensOf [replacement] }

/-- A replacement character that comes is held. -/
theorem blocks_replacement_append (tokens : List Token) :
    blocks detokenize {} (tokensOf [replacement] ++ tokens) =
      holdingReplacement.blocks detokenize tokens := by
  have htokens : tokensOf [replacement] = [0xEF, 0xBF, 0xBD] := by decide +kernel
  have hfirst : push detokenize {} 0xEF = ({ held := [0xEF] }, .ok none) := by decide +kernel
  have hsecond : push detokenize { held := [0xEF] } 0xBF =
      ({ held := [0xEF, 0xBF] }, .ok none) := by decide +kernel
  have hthird : push detokenize { held := [0xEF, 0xBF] } 0xBD =
      ({ held := [0xEF, 0xBF, 0xBD] }, .ok none) := by decide +kernel
  rw [holdingReplacement, htokens]
  simp only [List.cons_append, List.nil_append]
  rw [blocks_of_held (by rw [hfirst]; rfl), hfirst, blocks_of_held (by rw [hsecond]; rfl), hsecond,
    blocks_of_held (by rw [hthird]; rfl), hthird]

/-- The byte that comes next is let go with it, whatever it is. -/
theorem blocks_holdingReplacement_cons (byte : UInt8) (tokens : List Token) :
    holdingReplacement.blocks detokenize (byte.toNat :: tokens) =
      (tokensOf [replacement] ++ [byte.toNat]) :: blocks detokenize {} tokens := by
  have hheld : ∀ token ∈ tokensOf [replacement] ++ [byte.toNat], token ≤ endOfGeneration :=
    List.forall_mem_append.mpr
      ⟨by decide +kernel, List.forall_mem_singleton.mpr (le_endOfGeneration_toNat byte)⟩
  have htext : detokenize (holdingReplacement.held ++ [byte.toNat]) = .ok _ :=
    ByteModel.detokenize_of_le hheld
  refine blocks_of_released ?_ tokens
  rw [push_of_ok htext, if_neg]
  exact fun hkept => absurd hkept.2 (by decide +kernel)

/-- After the replacement character and the byte the decoder is where the byte alone leads. -/
theorem feedAll_replacement_append (bytes : List UInt8) :
    (feedAll none (String.utf8EncodeChar replacement ++ bytes)).2 = (feedAll none bytes).2 := by
  rw [Utf8.feedAll_append, (Utf8.spells_encode replacement).feedAll_eq]

/-- What comes after a replacement character is cut just if it has several bytes. -/
theorem severs_replacement_append {byte : UInt8} {rest : List UInt8}
    (h : Spells none (byte :: rest) c) (bytes : List UInt8) :
    Severs (String.utf8EncodeChar replacement ++ [byte]) (rest ++ bytes) ↔ rest ≠ [] := by
  have hfeed : feedAll none [byte] = feed none byte := by
    simp only [feedAll, List.append_nil]
  rw [Severs, feedAll_replacement_append, hfeed]
  cases h with
  | last h =>
    rw [h]
    exact iff_of_false id (fun hrest => hrest rfl)
  | next h hrest =>
    rw [h]
    exact iff_of_true (hrest.continues_append bytes) hrest.ne_nil

/-- No block that the characters are let go in ends inside a character. -/
def Streamable (decoder : DeltaDecoder) (chars : List Char) : Prop :=
  Unsevered ((decoder.blocks detokenize (tokensOf chars)).map byteValues)

theorem streamable_cons {rest : List Char} (hc : c ≠ replacement) :
    Streamable {} (c :: rest) ↔ Streamable {} rest := by
  have hspells := Utf8.spells_encode c
  obtain ⟨-, hblocks⟩ := run_of_spells hspells hc holds_empty (by simpa using length_encode_le c)
  rw [Streamable, tokensOf_cons, hblocks, List.map_cons, Utf8.unsevered_cons]
  simp only [List.nil_append]
  rw [ByteModel.byteValues_map_toNat]
  exact and_iff_right (Utf8.not_severs_of_spells hspells _)

theorem streamable_replacement_cons {rest : List Char} :
    Streamable {} (replacement :: rest) ↔ Streamable holdingReplacement rest := by
  have htokens : tokensOf (replacement :: rest) = tokensOf [replacement] ++ tokensOf rest :=
    tokensOf_append [replacement] rest
  rw [Streamable, htokens, blocks_replacement_append, Streamable]

theorem streamable_holdingReplacement_cons {rest : List Char} :
    Streamable holdingReplacement (c :: rest) ↔ c.utf8Size = 1 ∧ Streamable {} rest := by
  have hspells := Utf8.spells_encode c
  obtain ⟨byte, bytes, hbytes⟩ := List.exists_cons_of_ne_nil hspells.ne_nil
  have hsize : c.utf8Size = bytes.length + 1 := by
    rw [← String.length_utf8EncodeChar, hbytes, List.length_cons]
  have hsevers := severs_replacement_append (hbytes ▸ hspells) (rest.flatMap String.utf8EncodeChar)
  rw [Streamable, tokensOf_cons, hbytes, List.map_cons, List.cons_append,
    blocks_holdingReplacement_cons, List.map_cons, Utf8.unsevered_cons,
    ← ByteModel.byteValues_flatten, flatten_blocks]
  simp only [List.nil_append]
  rw [ByteModel.byteValues_append, ByteModel.byteValues_append, byteValues_tokensOf,
    byteValues_tokensOf, ByteModel.byteValues_map_toNat, List.flatMap_singleton,
    ByteModel.byteValues_singleton, hsevers]
  -- The first byte is let go with the replacement character; are there others that it is cut from?
  by_cases hone : bytes = []
  · rw [hone] at hsize ⊢
    exact and_congr_left' (iff_of_true (fun h => h rfl) hsize)
  · have hlength := List.length_pos_of_ne_nil hone
    exact iff_of_false (fun h => h.1 hone) (fun h => by omega)

/-- **A text can be streamed** just if no character of several bytes comes right after a replacement
character. The same holds if the decoder already holds a replacement character, which then counts
as the first one. -/
theorem streamable_iff (chars : List Char) :
    (Streamable {} chars ↔ Separable chars) ∧
      (Streamable holdingReplacement chars ↔ Separable (replacement :: chars)) := by
  induction chars with
  | nil =>
    refine ⟨iff_of_true Utf8.unsevered_nil (separable_of_length (by decide)),
      iff_of_true ?_ (separable_of_length (by decide))⟩
    exact Utf8.unsevered_cons.mpr ⟨by decide +kernel, Utf8.unsevered_nil⟩
  | cons c rest ih =>
    obtain ⟨hfresh, hholding⟩ := ih
    -- A replacement character changes the decoder, so each half needs the other one for the rest.
    have hcons : Streamable {} (c :: rest) ↔ Separable (c :: rest) := by
      by_cases hc : c = replacement
      · rw [hc, streamable_replacement_cons, hholding]
      · rw [streamable_cons hc, separable_cons_of_ne hc, hfresh]
    refine ⟨hcons, ?_⟩
    -- A character of one byte is not a replacement character itself.
    rw [streamable_holdingReplacement_cons, separable_replacement_cons, ← hcons]
    refine and_congr_right fun hsize => (streamable_cons ?_).symm
    rintro rfl
    exact absurd hsize (by decide +kernel)

/-- **Text that comes piece by piece.** Whatever the tokens are, the decoder gives no error. The
texts that come out make up the text of all the tokens, unless the limit on what is held is reached
in the middle of a character. In a text this happens just where a character of several bytes comes
right after a replacement character. -/
theorem joined_eq_iff :
    (∀ tokens : List Token, (∀ token ∈ tokens, token ≤ endOfGeneration) →
      ∃ (texts : List (Option String)) (whole : String),
        answers detokenize {} tokens = texts.map .ok ∧ detokenize tokens = .ok whole ∧
          (String.join texts.reduceOption = whole ↔ ¬ CutsCharacter tokens)) ∧
      ∀ text : String, ∃ texts : List (Option String),
        answers detokenize {} (tokenize text) = texts.map .ok ∧
          (String.join texts.reduceOption = text ↔
            ∀ c, [replacement, c] <:+: text.toList → c.utf8Size = 1) := by
  constructor
  · intro tokens htokens
    obtain ⟨texts, hanswers, hjoin⟩ := exists_texts htokens
    refine ⟨texts, _, hanswers, ByteModel.detokenize_of_le htokens, ?_⟩
    rw [hjoin, not_cutsCharacter_iff htokens]
  · intro text
    have htokens : ∀ token ∈ tokenize text, token ≤ endOfGeneration :=
      fun _ => ByteModel.le_of_mem_tokenize
    obtain ⟨texts, hanswers, hjoin⟩ := exists_texts htokens
    have hwhole : Utf8.decodeLossy (byteValues (tokenize text)) = text :=
      Except.ok.inj ((ByteModel.detokenize_of_le htokens).symm.trans
        (ByteModel.detokenize_tokenize text))
    rw [hwhole] at hjoin
    exact ⟨texts, hanswers, hjoin.trans (streamable_iff text.toList).1⟩

/-- The fourth token held is the first byte of a character of two. -/
theorem character_cut_after_replacement :
    let texts := [none, none, none, some "\uFFFD\uFFFD", none, some "\uFFFD"]
    tokenize "\uFFFDé" = [0xEF, 0xBF, 0xBD, 0xC3, 0xA9] ∧
      answers detokenize {} (tokenize "\uFFFDé") = texts.map .ok ∧
      detokenize (tokenize "\uFFFDé") = .ok "\uFFFDé" ∧
      String.join texts.reduceOption ≠ "\uFFFDé" := by
  decide +kernel

end Turnwise.DeltaDecoder
