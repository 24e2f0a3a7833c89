import Mathlib.Algebra.Group.Nat.Defs
import Mathlib.Data.List.Basic
import Mathlib.Tactic.SplitIfs
import Turnwise.Text.Utf8

/-!
# Bytes and characters

The decoder is an automaton, so the text of a list of bytes can be taken piece by piece if the state
is kept between the pieces (`decodeFrom_append`). This module says what the automaton does with the
bytes of a character, and what is lost if the state is not kept.

* The bytes of a character complete it with the last of them, and nothing comes out before
  (`spells_encode`). So decoding undoes encoding (`decodeFrom_encode`).
* Bytes that are decoded in blocks, each by itself, give the same text as all together if and only
  if no block ends inside a character that the next byte goes on with (`decodeFrom_flatten_iff`).
  Cutting a character never loses anything: it makes the text longer.
-/

namespace Turnwise.Utf8

variable {state : Option Partial} {p : Partial} {bytes bytes' : List UInt8} {c : Char}

/-! ### Many bytes -/

/-- Takes bytes one by one, and gives the characters that they complete and the state after them. -/
def feedAll (state : Option Partial) : List UInt8 → List Char × Option Partial
  | [] => ([], state)
  | byte :: rest =>
      ((feed state byte).1 ++ (feedAll (feed state byte).2 rest).1,
        (feedAll (feed state byte).2 rest).2)

theorem decodeFrom_append (state : Option Partial) (bytes bytes' : List UInt8) :
    decodeFrom state (bytes ++ bytes') =
      (feedAll state bytes).1 ++ decodeFrom (feedAll state bytes).2 bytes' := by
  induction bytes generalizing state with
  | nil => rfl
  | cons byte rest ih => rw [List.cons_append, decodeFrom, ih, feedAll, ← List.append_assoc]

theorem decodeFrom_eq (state : Option Partial) (bytes : List UInt8) :
    decodeFrom state bytes = (feedAll state bytes).1 ++ decodeFrom (feedAll state bytes).2 [] := by
  rw [← decodeFrom_append, List.append_nil]

theorem feedAll_append (state : Option Partial) (bytes bytes' : List UInt8) :
    feedAll state (bytes ++ bytes') =
      ((feedAll state bytes).1 ++ (feedAll (feedAll state bytes).2 bytes').1,
        (feedAll (feedAll state bytes).2 bytes').2) := by
  induction bytes generalizing state with
  | nil => rfl
  | cons byte rest ih => rw [List.cons_append, feedAll, ih, feedAll, ← List.append_assoc]

/-! ### Characters -/

/-- The bytes complete the character with the last of them, and nothing comes out before. -/
inductive Spells : Option Partial → List UInt8 → Char → Prop
  | last {state : Option Partial} {byte : UInt8} {c : Char} (h : feed state byte = ([c], none)) :
      Spells state [byte] c
  | next {state : Option Partial} {byte : UInt8} {p : Partial} {rest : List UInt8} {c : Char}
      (h : feed state byte = ([], some p)) (hrest : Spells (some p) rest c) :
      Spells state (byte :: rest) c

theorem Spells.feedAll_eq (h : Spells state bytes c) : feedAll state bytes = ([c], none) := by
  induction h with
  | last h => simp only [feedAll, h, List.append_nil]
  | next h _ ih => simp only [feedAll, h, ih, List.nil_append]

theorem Spells.ne_nil (h : Spells state bytes c) : bytes ≠ [] := by
  cases h <;> exact List.cons_ne_nil _ _

/-- A byte in the range that the state admits. -/
theorem feed_of_admissible {byte : UInt8} (h : p.low ≤ byte.toNat ∧ byte.toNat ≤ p.high) :
    feed (some p) byte =
      if p.missing = 1 then ([Char.ofNat (p.value * 64 + byte.toNat % 64)], none)
      else ([], some ⟨p.missing - 1, p.value * 64 + byte.toNat % 64, 0x80, 0xBF⟩) := by
  rw [feed]
  exact if_pos h

/-- The last bytes of the encoding of a number: six bits each. -/
def tailBytes : Nat → Nat → List UInt8
  | 0, _ => []
  | count + 1, value => UInt8.ofNat (value / 64 ^ count % 64 + 128) :: tailBytes count value

theorem spells_tailBytes (count value low high : Nat)
    (hlow : low ≤ value / 64 ^ count % 64 + 128) (hhigh : value / 64 ^ count % 64 + 128 ≤ high) :
    Spells (some ⟨count + 1, value / 64 ^ (count + 1), low, high⟩) (tailBytes (count + 1) value)
      (Char.ofNat value) := by
  induction count generalizing low high with
  | zero =>
    have hbyte : (UInt8.ofNat (value / 64 ^ 0 % 64 + 128)).toNat =
        value / 64 ^ 0 % 64 + 128 := by
      rw [UInt8.toNat_ofNat']
      omega
    refine .last ?_
    rw [feed_of_admissible (by rw [hbyte]; exact ⟨hlow, hhigh⟩), hbyte, if_pos rfl]
    simp only [Nat.pow_zero, Nat.div_one, Nat.zero_add, Nat.pow_one]
    congr 3
    omega
  | succ count ih =>
    have hbyte : (UInt8.ofNat (value / 64 ^ (count + 1) % 64 + 128)).toNat =
        value / 64 ^ (count + 1) % 64 + 128 := by
      rw [UInt8.toNat_ofNat']
      omega
    have hvalue : value / 64 ^ (count + 2) * 64 +
        (value / 64 ^ (count + 1) % 64 + 128) % 64 = value / 64 ^ (count + 1) := by
      rw [Nat.pow_succ 64 (count + 1), ← Nat.div_div_eq_div_mul]
      omega
    refine .next (p := ⟨count + 1, value / 64 ^ (count + 1), 0x80, 0xBF⟩) ?_
      (ih _ _ (Nat.le_add_left _ _) (by omega))
    rw [feed_of_admissible (by rw [hbyte]; exact ⟨hlow, hhigh⟩), hbyte, hvalue,
      if_neg (Nat.succ_succ_ne_one count)]
    rfl

/-! #### First bytes -/

theorem start_of_two {value : Nat} (h : 2 ≤ value) (h' : value < 32) :
    start (UInt8.ofNat (value + 192)) = ([], some ⟨1, value, 0x80, 0xBF⟩) := by
  have hbyte : (UInt8.ofNat (value + 192)).toNat = value + 192 := by
    rw [UInt8.toNat_ofNat']
    omega
  simp only [start, hbyte]
  rw [if_neg (by omega), if_neg (by omega), if_pos (by omega), Nat.add_sub_cancel]

/-- The first of three bytes says where the second one may lie: not so low that two bytes would do,
and not among the surrogates. -/
theorem start_of_three {value : Nat} (h : value < 16) :
    start (UInt8.ofNat (value + 224)) = ([], some ⟨2, value, if value = 0 then 0xA0 else 0x80,
      if value = 13 then 0x9F else 0xBF⟩) := by
  have hbyte : (UInt8.ofNat (value + 224)).toNat = value + 224 := by
    rw [UInt8.toNat_ofNat']
    omega
  simp only [start, hbyte]
  rw [if_neg (by omega), if_neg (by omega), if_neg (by omega)]
  by_cases hzero : value = 0
  · subst hzero
    rfl
  · rw [if_neg (by omega), if_neg hzero]
    by_cases hsurrogate : value = 13
    · subst hsurrogate
      rfl
    · rw [if_neg (by omega), if_pos (by omega), if_neg hsurrogate, Nat.add_sub_cancel]

/-- The first of four bytes: the second one is not so low that three would do, and not beyond the
last character. -/
theorem start_of_four {value : Nat} (h : value < 5) :
    start (UInt8.ofNat (value + 240)) = ([], some ⟨3, value, if value = 0 then 0x90 else 0x80,
      if value = 4 then 0x8F else 0xBF⟩) := by
  have hcases : value = 0 ∨ value = 1 ∨ value = 2 ∨ value = 3 ∨ value = 4 := by omega
  rcases hcases with rfl | rfl | rfl | rfl | rfl <;> rfl

/-- **The bytes of a character spell it.** -/
theorem spells_encode (c : Char) : Spells none (String.utf8EncodeChar c) c := by
  have hc : Char.ofNat c.val.toNat = c := Char.ofNat_toNat c
  have hvalid : c.val.toNat < 0xD800 ∨ 0xDFFF < c.val.toNat ∧ c.val.toNat < 0x110000 := c.valid
  unfold String.utf8EncodeChar
  dsimp only
  generalize c.val.toNat = value at hc hvalid
  subst hc
  -- One to four bytes: the first one has the upper bits, and six bits are in each of the others.
  split_ifs with hone htwo hthree
  · refine .last ?_
    have hbyte : (UInt8.ofNat value).toNat = value := by
      rw [UInt8.toNat_ofNat']
      omega
    rw [feed, start, hbyte]
    exact if_pos (by omega)
  · have hfirst : value / 64 % 32 = value / 64 := by omega
    have htail := spells_tailBytes 0 value 0x80 0xBF (by omega) (by omega)
    rw [hfirst]
    exact .next (start_of_two (by omega) (by omega)) (by simpa [tailBytes] using htail)
  · have hfirst : value / 4096 % 16 = value / 4096 := by omega
    have htail := spells_tailBytes 1 value (if value / 4096 = 0 then 0xA0 else 0x80)
      (if value / 4096 = 13 then 0x9F else 0xBF) (by split_ifs <;> omega) (by split_ifs <;> omega)
    rw [hfirst]
    exact .next (start_of_three (by omega)) (by simpa [tailBytes] using htail)
  · have hfirst : value / 262144 % 8 = value / 262144 := by omega
    have htail := spells_tailBytes 2 value (if value / 262144 = 0 then 0x90 else 0x80)
      (if value / 262144 = 4 then 0x8F else 0xBF) (by split_ifs <;> omega) (by split_ifs <;> omega)
    rw [hfirst]
    exact .next (start_of_four (by omega)) (by simpa [tailBytes] using htail)

theorem decodeFrom_encode_append (c : Char) (bytes : List UInt8) :
    decodeFrom none (String.utf8EncodeChar c ++ bytes) = c :: decodeFrom none bytes := by
  rw [decodeFrom_append, (spells_encode c).feedAll_eq, List.singleton_append]

/-- **Decoding undoes encoding.** -/
theorem decodeFrom_encode (chars : List Char) :
    decodeFrom none (chars.flatMap String.utf8EncodeChar) = chars := by
  induction chars with
  | nil => rfl
  | cons c rest ih => rw [List.flatMap_cons, decodeFrom_encode_append, ih]

/-! ### Bytes in blocks -/

/-- The bytes go on with the character that has begun. -/
def Continues : Option Partial → List UInt8 → Prop
  | some p, byte :: _ => p.low ≤ byte.toNat ∧ byte.toNat ≤ p.high
  | _, _ => False

instance : (state : Option Partial) → (bytes : List UInt8) → Decidable (Continues state bytes)
  | some p, byte :: _ => inferInstanceAs (Decidable (p.low ≤ byte.toNat ∧ byte.toNat ≤ p.high))
  | some _, [] | none, _ => inferInstanceAs (Decidable False)

/-- Between the two lists of bytes there is no boundary of characters. -/
def Severs (bytes bytes' : List UInt8) : Prop := Continues (feedAll none bytes).2 bytes'

instance (bytes bytes' : List UInt8) : Decidable (Severs bytes bytes') :=
  inferInstanceAs (Decidable (Continues _ _))

theorem exists_of_severs (h : Severs bytes bytes') :
    ∃ p, (feedAll none bytes).2 = some p ∧ Continues (some p) bytes' := by
  unfold Severs at h
  cases hstate : (feedAll none bytes).2 with
  | none =>
    rw [hstate] at h
    exact h.elim
  | some p => exact ⟨p, rfl, hstate ▸ h⟩

/-- The admissible bytes of a state cannot begin a character. -/
def Partial.Proper (p : Partial) : Prop := 0x80 ≤ p.low ∧ p.high ≤ 0xBF

/-- A character by itself, or the beginning of one. -/
inductive Opening : List Char × Option Partial → Prop
  | whole (c : Char) : Opening ([c], none)
  | begun {p : Partial} (hp : p.Proper) : Opening ([], some p)

/-- That is what a byte between two characters is. -/
theorem opening_start (byte : UInt8) : Opening (start byte) := by
  unfold start
  repeat' refine iteInduction (motive := Opening) (fun _ => ?_) (fun _ => ?_)
  all_goals first
    | exact .whole _
    | exact .begun ⟨by dsimp only; omega, by dsimp only; omega⟩

theorem start_ne (byte : UInt8) : start byte ≠ ([], none) := by
  intro h
  have hopening := opening_start byte
  rw [h] at hopening
  nomatch hopening

theorem proper_of_start {byte : UInt8} (h : (start byte).2 = some p) : p.Proper := by
  have hopening := opening_start byte
  cases hstart : start byte with
  | mk chars next =>
    rw [hstart] at hopening h
    cases hopening with
    | whole c => cases h
    | begun hp => exact Option.some.inj h ▸ hp

/-- A byte that cannot go on with the character begun ends it, and is looked at afresh. -/
theorem feed_of_not_admissible {byte : UInt8} (h : ¬ (p.low ≤ byte.toNat ∧ byte.toNat ≤ p.high)) :
    feed (some p) byte = (replacement :: (start byte).1, (start byte).2) := by
  rw [feed]
  exact if_neg h

/-- The bytes of a character go on with what has begun. -/
theorem Spells.continues (h : Spells (some p) bytes c) : Continues (some p) bytes := by
  cases h with
  | @last _ byte _ h =>
    by_contra hnot
    rw [feed_of_not_admissible hnot] at h
    obtain ⟨hchars, hstate⟩ := Prod.mk.inj h
    exact start_ne byte (Prod.ext (List.cons.inj hchars).2 hstate)
  | @next _ byte _ rest _ h =>
    by_contra hnot
    rw [feed_of_not_admissible hnot] at h
    exact nomatch (Prod.mk.inj h).1

theorem Spells.continues_append (h : Spells (some p) bytes c) (bytes' : List UInt8) :
    Continues (some p) (bytes ++ bytes') := by
  have hcontinues := h.continues
  cases h <;> exact hcontinues

/-- After a whole character there is a boundary. -/
theorem not_severs_of_spells (h : Spells none bytes c) (bytes' : List UInt8) :
    ¬ Severs bytes bytes' := by
  rw [Severs, h.feedAll_eq]
  exact id

theorem proper_of_feed {byte : UInt8} (h : (feed state byte).2 = some p) : p.Proper := by
  unfold feed at h
  split at h
  · exact proper_of_start h
  · dsimp only at h
    split_ifs at h
    · cases h
      exact ⟨Nat.le_refl _, Nat.le_refl _⟩
    · exact proper_of_start h

theorem proper_of_feedAll (h : (feedAll none bytes).2 = some p) : p.Proper := by
  -- A state is proper after any byte, so the induction is over all states, with any to begin with.
  suffices hall : ∀ state, (∀ p, state = some p → p.Proper) →
      ∀ p, (feedAll state bytes).2 = some p → p.Proper from hall none nofun p h
  clear h
  induction bytes with
  | nil => exact fun state hstate => hstate
  | cons byte rest ih => exact fun state _ => ih (feed state byte).2 fun _ => proper_of_feed

theorem decodeFrom_of_not_continues (h : ¬ Continues (some p) bytes) :
    decodeFrom (some p) bytes = replacement :: decodeFrom none bytes := by
  cases bytes with
  | nil => rfl
  | cons byte rest =>
    rw [decodeFrom, decodeFrom, feed_of_not_admissible h]
    rfl

/-- A byte that goes on with a character is nothing by itself. -/
theorem start_of_continues {byte : UInt8} {rest : List UInt8} (hp : p.Proper)
    (h : Continues (some p) (byte :: rest)) : start byte = ([replacement], none) := by
  obtain ⟨hlow, hhigh⟩ := h
  obtain ⟨hlow', hhigh'⟩ := hp
  unfold start
  dsimp only
  rw [if_neg (by omega), if_pos (by omega)]

/-- A character that has begun takes the place of a replacement character at most. -/
theorem length_decodeFrom_some_le (hp : p.Proper) (bytes : List UInt8) :
    (decodeFrom (some p) bytes).length ≤ (decodeFrom none bytes).length + 1 := by
  induction bytes generalizing p with
  | nil => exact Nat.le_refl 1
  | cons byte rest ih =>
    by_cases hcontinues : Continues (some p) (byte :: rest)
    -- By itself the byte is a replacement character, which pays for what the character may take.
    · rw [decodeFrom, decodeFrom, feed, start_of_continues hp hcontinues,
        feed_of_admissible hcontinues]
      split_ifs
      · simp
      · have hrest := ih (p := ⟨p.missing - 1, p.value * 64 + byte.toNat % 64, 0x80, 0xBF⟩)
          ⟨Nat.le_refl _, Nat.le_refl _⟩
        simp only [List.nil_append, List.length_append, List.length_singleton]
        omega
    · exact Nat.le_of_eq (congrArg List.length (decodeFrom_of_not_continues hcontinues))

/-- If the bytes go on with the character, it takes less. -/
theorem length_decodeFrom_some_lt (hp : p.Proper) (h : Continues (some p) bytes) :
    (decodeFrom (some p) bytes).length < (decodeFrom none bytes).length + 1 := by
  cases bytes with
  | nil => exact h.elim
  | cons byte rest =>
    rw [decodeFrom, decodeFrom, feed, start_of_continues hp h, feed_of_admissible h]
    split_ifs
    · simp
    · have hrest := length_decodeFrom_some_le
        (p := ⟨p.missing - 1, p.value * 64 + byte.toNat % 64, 0x80, 0xBF⟩)
        ⟨Nat.le_refl _, Nat.le_refl _⟩ rest
      simp only [List.nil_append, List.length_append, List.length_singleton]
      omega

/-- At a boundary of characters the state need not be kept. -/
theorem decodeFrom_append_of_not_severs (h : ¬ Severs bytes bytes') :
    decodeFrom none (bytes ++ bytes') = decodeFrom none bytes ++ decodeFrom none bytes' := by
  rw [decodeFrom_append, decodeFrom_eq none bytes, List.append_assoc]
  congr 1
  unfold Severs at h
  cases hstate : (feedAll none bytes).2 with
  | none => rfl
  | some p =>
    rw [hstate] at h
    exact decodeFrom_of_not_continues h

/-- Inside a character there comes out more if the state is not kept. -/
theorem length_decodeFrom_append_lt (h : Severs bytes bytes') :
    (decodeFrom none (bytes ++ bytes')).length <
      (decodeFrom none bytes).length + (decodeFrom none bytes').length := by
  obtain ⟨p, hstate, hcontinues⟩ := exists_of_severs h
  have hlt := length_decodeFrom_some_lt (proper_of_feedAll hstate) hcontinues
  have hend : (decodeFrom (some p) []).length = 1 := rfl
  rw [decodeFrom_append, decodeFrom_eq none bytes, List.length_append, List.length_append, hstate]
  omega

/-- No block ends inside a character that the bytes after it go on with. -/
def Unsevered (blocks : List (List UInt8)) : Prop :=
  ∀ block after, block :: after <:+ blocks → ¬ Severs block after.flatten

theorem unsevered_nil : Unsevered [] := fun _ _ h => nomatch List.suffix_nil.mp h

theorem unsevered_cons {block : List UInt8} {rest : List (List UInt8)} :
    Unsevered (block :: rest) ↔ ¬ Severs block rest.flatten ∧ Unsevered rest := by
  constructor
  · exact fun h => ⟨h block rest (List.suffix_refl _), fun block' after hsuffix =>
      h block' after (hsuffix.trans (List.suffix_cons block rest))⟩
  · rintro ⟨hfirst, hrest⟩ block' after hsuffix
    rcases List.suffix_cons_iff.mp hsuffix with heq | hsuffix
    · obtain ⟨rfl, rfl⟩ := List.cons.inj heq
      exact hfirst
    · exact hrest block' after hsuffix

theorem length_decodeFrom_flatten_le (blocks : List (List UInt8)) :
    (decodeFrom none blocks.flatten).length ≤ (blocks.flatMap (decodeFrom none)).length := by
  induction blocks with
  | nil => exact Nat.le_refl 0
  | cons block rest ih =>
    rw [List.flatten_cons, List.flatMap_cons, List.length_append]
    by_cases h : Severs block rest.flatten
    · have hlt := length_decodeFrom_append_lt h
      omega
    · rw [decodeFrom_append_of_not_severs h, List.length_append]
      omega

/-- **Blocks of bytes can be decoded by themselves** just if none of them ends inside a
character. -/
theorem decodeFrom_flatten_iff (blocks : List (List UInt8)) :
    blocks.flatMap (decodeFrom none) = decodeFrom none blocks.flatten ↔ Unsevered blocks := by
  induction blocks with
  | nil => exact iff_of_true rfl unsevered_nil
  | cons block rest ih =>
    rw [unsevered_cons, List.flatMap_cons, List.flatten_cons]
    by_cases h : Severs block rest.flatten
    · refine iff_of_false (fun heq => ?_) (fun hwhole => hwhole.1 h)
      have hlt := length_decodeFrom_append_lt h
      have hle := length_decodeFrom_flatten_le rest
      rw [← heq, List.length_append] at hlt
      omega
    · rw [decodeFrom_append_of_not_severs h, List.append_cancel_left_eq, ih]
      exact ⟨fun hrest => ⟨h, hrest⟩, And.right⟩

end Turnwise.Utf8
