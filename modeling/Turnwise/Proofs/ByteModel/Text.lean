import Turnwise.ByteModel
import Turnwise.Proofs.Text.Utf8

/-!
# The text of byte tokens

The tokens of the byte model are bytes, apart from the one that ends a generation, which has no
text. So the text of tokens is that of the bytes among them (`detokenize_of_le`).

Ends of generations may stand anywhere among the tokens of a text, also inside a character, and the
text comes back (`detokenize_interspersed`). Tokens have no text just if one of them is outside the
vocabulary, and the error names the first such token (`detokenize_eq_error_iff`).
-/

namespace Turnwise.ByteModel

variable {tokens : List Token}

/-- The bytes among some tokens. -/
def byteValues (tokens : List Token) : List UInt8 :=
  tokens.filterMap fun token => if token < 256 then some token.toUInt8 else none

theorem byteValues_cons (token : Token) (rest : List Token) :
    byteValues (token :: rest) =
      if token < 256 then token.toUInt8 :: byteValues rest else byteValues rest := by
  rw [byteValues, List.filterMap_cons]
  split_ifs <;> rfl

theorem byteValues_append (tokens tokens' : List Token) :
    byteValues (tokens ++ tokens') = byteValues tokens ++ byteValues tokens' :=
  List.filterMap_append

theorem byteValues_flatten (blocks : List (List Token)) :
    byteValues blocks.flatten = (blocks.map byteValues).flatten :=
  List.filterMap_flatten ..

theorem byteValues_map_toNat (bytes : List UInt8) : byteValues (bytes.map UInt8.toNat) = bytes := by
  rw [byteValues, List.filterMap_map]
  refine (List.filterMap_congr fun byte _ => ?_).trans List.filterMap_some
  exact (if_pos byte.toNat_lt).trans (congrArg some UInt8.ofNat_toNat)

theorem byteValues_singleton (byte : UInt8) : byteValues [byte.toNat] = [byte] :=
  byteValues_map_toNat [byte]

theorem bytes_of_le (h : ∀ token ∈ tokens, token ≤ endOfGeneration) :
    bytes tokens = .ok (byteValues tokens) := by
  induction tokens with
  | nil => rfl
  | cons token rest ih =>
    obtain ⟨htoken, hrest⟩ := List.forall_mem_cons.mp h
    rw [bytes, ih hrest, byteValues_cons]
    by_cases hbyte : token < 256
    · rw [if_pos hbyte, if_pos hbyte]
      rfl
    -- The one token of the vocabulary that is not a byte has no text of its own.
    · rw [if_neg hbyte, if_neg hbyte, if_pos (Nat.le_antisymm htoken (Nat.le_of_not_lt hbyte))]

/-- **The text of tokens is that of their bytes.** -/
theorem detokenize_of_le (h : ∀ token ∈ tokens, token ≤ endOfGeneration) :
    detokenize tokens = .ok (Utf8.decodeLossy (byteValues tokens)) := by
  rw [detokenize, bytes_of_le h]
  rfl

/-- Tokens of the vocabulary have a text. -/
theorem detokenize_eq_ok (h : ∀ token ∈ tokens, token < vocabularySize) :
    ∃ text, detokenize tokens = .ok text :=
  ⟨_, detokenize_of_le fun token hmem => Nat.le_of_lt_succ (h token hmem)⟩

/-- The tokens of a text are in the vocabulary. -/
theorem lt_of_mem_tokenize {text : String} {token : Token} (h : token ∈ tokenize text) :
    token < vocabularySize := by
  obtain ⟨byte, -, rfl⟩ := List.mem_map.mp h
  exact Nat.lt_succ_of_lt byte.toNat_lt

theorem le_of_mem_tokenize {text : String} {token : Token} (h : token ∈ tokenize text) :
    token ≤ endOfGeneration :=
  Nat.le_of_lt_succ (lt_of_mem_tokenize h)

theorem byteValues_tokenize (text : String) : byteValues (tokenize text) = Utf8.encode text :=
  byteValues_map_toNat _

/-! ### Ends of generations -/

/-- The second list is the first one with ends of generations put in at any places. -/
inductive Interspersed : List Token → List Token → Prop
  | nil : Interspersed [] []
  | ending {tokens tokens' : List Token} (h : Interspersed tokens tokens') :
      Interspersed tokens (endOfGeneration :: tokens')
  | token (token : Token) {tokens tokens' : List Token} (h : Interspersed tokens tokens') :
      Interspersed (token :: tokens) (token :: tokens')

theorem Interspersed.refl (tokens : List Token) : Interspersed tokens tokens := by
  induction tokens with
  | nil => exact .nil
  | cons token rest ih => exact .token token ih

/-- An end of a generation is no byte. -/
theorem Interspersed.byteValues_eq {tokens' : List Token} (h : Interspersed tokens tokens') :
    byteValues tokens' = byteValues tokens := by
  induction h with
  | nil => rfl
  | ending _ ih => rw [byteValues_cons, if_neg (by decide), ih]
  | token token _ ih => rw [byteValues_cons, byteValues_cons, ih]

/-- It is in the vocabulary. -/
theorem Interspersed.le_endOfGeneration {tokens' : List Token} (h : Interspersed tokens tokens')
    (hle : ∀ token ∈ tokens, token ≤ endOfGeneration) :
    ∀ token ∈ tokens', token ≤ endOfGeneration := by
  induction h with
  | nil => exact hle
  | ending _ ih => simpa using ih hle
  | token token _ ih =>
    obtain ⟨htoken, hrest⟩ := List.forall_mem_cons.mp hle
    exact List.forall_mem_cons.mpr ⟨htoken, ih hrest⟩

theorem detokenize_interspersed {text : String} (h : Interspersed (tokenize text) tokens) :
    detokenize tokens = .ok text := by
  have hle := h.le_endOfGeneration fun _ => le_of_mem_tokenize
  rw [detokenize_of_le hle, h.byteValues_eq, byteValues_tokenize, Utf8.decodeLossy, Utf8.encode,
    Utf8.decodeFrom_encode, String.ofList_toList]

/-- The text of the tokens of a text is the text itself. -/
theorem detokenize_tokenize (text : String) : detokenize (tokenize text) = .ok text :=
  detokenize_interspersed (.refl _)

/-! ### Failures -/

/-- The first token outside the vocabulary is the one that is reported. -/
theorem bytes_of_find? {token : Token}
    (h : tokens.find? (fun token => endOfGeneration < token) = some token) :
    bytes tokens = .error (.tokenization s!"token {token} outside vocabulary") := by
  induction tokens with
  | nil => simp at h
  | cons first rest ih =>
    rw [List.find?_cons] at h
    by_cases hfirst : endOfGeneration < first
    · simp only [hfirst, decide_true, Option.some.injEq] at h
      have hbyte : ¬ first < 256 := Nat.not_lt.mpr (Nat.le_of_lt hfirst)
      rw [bytes, if_neg hbyte, if_neg (Nat.ne_of_gt hfirst), h]
    · simp only [hfirst, decide_false] at h
      rw [bytes, ih h]
      -- Whether the first token is a byte or ends a generation, what is left has the error.
      by_cases hbyte : first < 256
      · rw [if_pos hbyte]
        rfl
      · rw [if_neg hbyte, if_pos (Nat.le_antisymm (Nat.le_of_not_lt hfirst)
          (Nat.le_of_not_lt hbyte))]

theorem detokenize_eq_error_iff {e : Error} :
    detokenize tokens = .error e ↔
      ∃ token, tokens.find? (fun token => endOfGeneration < token) = some token ∧
        e = .tokenization s!"token {token} outside vocabulary" := by
  cases hfind : tokens.find? (fun token => endOfGeneration < token) with
  | none =>
    have hle : ∀ token ∈ tokens, token ≤ endOfGeneration := by
      simpa [List.find?_eq_none] using hfind
    simp [detokenize_of_le hle]
  | some token =>
    have hfails : detokenize tokens =
        .error (.tokenization s!"token {token} outside vocabulary") := by
      rw [detokenize, bytes_of_find? hfind]
      rfl
    rw [hfails]
    constructor
    · intro h
      exact ⟨token, rfl, (Except.error.inj h).symm⟩
    · rintro ⟨_, ⟨⟩, rfl⟩
      rfl

/-- **Tokens and texts.** The tokens of a text give the text back, wherever ends of generations are
put in among them. Tokens have no text just if one of them is beyond the end of a generation. -/
theorem text_of_interspersed :
    (∀ text tokens, Interspersed (tokenize text) tokens → detokenize tokens = .ok text) ∧
      ∀ tokens, (∃ e, detokenize tokens = .error e) ↔
        ∃ token ∈ tokens, endOfGeneration < token := by
  refine ⟨fun text tokens h => detokenize_interspersed h, fun tokens => ?_⟩
  constructor
  · rintro ⟨e, he⟩
    obtain ⟨token, hfind, -⟩ := detokenize_eq_error_iff.mp he
    exact ⟨token, List.mem_of_find?_eq_some hfind, by simpa using List.find?_some hfind⟩
  · rintro ⟨token, hmem, hbeyond⟩
    cases hfind : tokens.find? (fun token => endOfGeneration < token) with
    | none => exact absurd hbeyond (by simpa using List.find?_eq_none.mp hfind token hmem)
    | some first => exact ⟨_, detokenize_eq_error_iff.mpr ⟨first, hfind, rfl⟩⟩

/-- Inside a character of two bytes, and around it. -/
theorem text_of_interspersed_within_character :
    Interspersed (tokenize "é") [256, 195, 256, 169, 256] ∧
      detokenize [256, 195, 256, 169, 256] = .ok "é" := by
  have h : Interspersed (tokenize "é") [256, 195, 256, 169, 256] :=
    .ending (.token 195 (.ending (.token 169 (.ending .nil))))
  exact ⟨h, text_of_interspersed.1 _ _ h⟩

end Turnwise.ByteModel
