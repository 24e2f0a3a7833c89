import Turnwise.Json.Reader
import Mathlib.Tactic.Common

/-!
# Documents that are written are read back

`Json.parse?_compact`: a document in which every string has a text and every number is an unsigned
integer is read back from its written form, whatever its strings hold and however deeply it is
nested.

The proof follows the reader. Each part of the reader gives back what the part of the writer that
belongs to it has written, and leaves the rest of the text alone: digits, then characters and
strings, then documents. What may follow a document is said once, by `Ends`: without it a number
would run on into its successor. The fuel is counted against the length of the text, since every
call of the reader consumes at least one character.
-/

namespace Turnwise

namespace Json

/-! ### What follows a document -/

/-- A text in front of which a document ends: the end of everything, a comma, or the bracket that
closes an array or an object. -/
def Ends : List Char → Prop
  | [] => True
  | c :: _ => c = ',' ∨ c = ']' ∨ c = '\x7d'

theorem ends_compactItems (items : List Json) (rest : List Char) :
    Ends (compactItems items ++ rest) := by
  cases items <;> simp [compactItems, Ends]

theorem ends_compactFields (fields : List (Option String × Json)) (rest : List Char) :
    Ends (compactFields fields ++ rest) := by
  cases fields <;> simp [compactFields, Ends]

/-! ### Numbers -/

theorem digitsValue_toDigits (n : Nat) : digitsValue (Nat.toDigits 10 n) = n :=
  Nat.ofDigitChars_toDigits (by decide) (by decide)

/-- The written form of a natural number starts with a digit. -/
theorem exists_digit_cons (n : Nat) :
    ∃ c digits, Nat.toDigits 10 n = c :: digits ∧ c.isDigit = true := by
  obtain ⟨c, digits, heq⟩ := List.exists_cons_of_ne_nil (Nat.toDigits_ne_nil (n := n) (b := 10))
  have hmem : c ∈ Nat.toDigits 10 n := by
    simp [heq]
  exact ⟨c, digits, heq, Nat.isDigit_of_mem_toDigits (by decide) (by decide) hmem⟩

theorem digitChar_ne_zero : ∀ n < 10, 0 < n → Nat.digitChar n ≠ '0' := by
  decide

/-- A natural number is written without leading zeros. -/
theorem head?_toDigits_ne_zero {n : Nat} (h : 0 < n) : (Nat.toDigits 10 n).head? ≠ some '0' := by
  induction n using Nat.strongRecOn with
  | ind n ih =>
    rcases Nat.lt_or_ge n 10 with hlt | hge
    · rw [Nat.toDigits_of_lt_base hlt, List.head?_cons]
      exact fun heq => digitChar_ne_zero n hlt h (Option.some.inj heq)
    · have hhead : (Nat.toDigits 10 (n / 10)).head?.isSome := by
        simp [Nat.toDigits_ne_nil]
      rw [Nat.toDigits_of_base_le (by decide) hge, List.head?_append, Option.or_of_isSome hhead]
      exact ih (n / 10) (by omega) (by omega)

theorem readDigits?_append {digits rest : List Char} (hdigits : ∀ c ∈ digits, c.isDigit = true)
    (hne : digits ≠ []) (hends : Ends rest) :
    readDigits? (digits ++ rest) = some (digits, rest) := by
  have hrest : rest.takeWhile Char.isDigit = [] ∧ rest.dropWhile Char.isDigit = rest := by
    cases rest with
    | nil => simp
    | cons c rest => rcases hends with rfl | rfl | rfl <;> simp
  rw [readDigits?, List.takeWhile_append_of_pos hdigits, List.dropWhile_append_of_pos hdigits,
    hrest.1, hrest.2, List.append_nil, if_neg (by simpa using hne)]

theorem readFraction?_of_ends {rest : List Char} (hends : Ends rest) :
    readFraction? rest = some ([], rest) := by
  cases rest with
  | nil => rfl
  | cons c rest => rcases hends with rfl | rfl | rfl <;> rfl

theorem readExponent?_of_ends {rest : List Char} (hends : Ends rest) :
    readExponent? rest = some ([], rest) := by
  cases rest with
  | nil => rfl
  | cons c rest => rcases hends with rfl | rfl | rfl <;> rfl

theorem readUnsigned?_toDigits (n : Nat) {rest : List Char} (hends : Ends rest) :
    readUnsigned? (Nat.toDigits 10 n ++ rest) = some ((Nat.toDigits 10 n, []), rest) := by
  have hread : readDigits? (Nat.toDigits 10 n ++ rest) = some (Nat.toDigits 10 n, rest) :=
    readDigits?_append (fun _ => Nat.isDigit_of_mem_toDigits (by decide) (by decide))
      Nat.toDigits_ne_nil hends
  have hzero : 1 < (Nat.toDigits 10 n).length → (Nat.toDigits 10 n).head? ≠ some '0' := by
    intro hlength
    apply head?_toDigits_ne_zero
    rcases n with _ | n
    · simp at hlength
    · omega
  simpa [readUnsigned?, hread, readFraction?_of_ends hends, readExponent?_of_ends hends] using hzero

/-- The number that is read is the one that was written. -/
theorem readNumber?_toDigits (n : Nat) {rest : List Char} (hends : Ends rest) :
    readNumber? (Nat.toDigits 10 n ++ rest) = some (natural n, rest) := by
  have hread := readUnsigned?_toDigits n hends
  obtain ⟨c, digits, heq, hdigit⟩ := exists_digit_cons n
  have hsign : c ≠ '-' := by
    rintro rfl
    cases hdigit
  have hvalue : digitsValue (c :: digits) = n := by
    rw [← heq, digitsValue_toDigits]
  rw [heq, List.cons_append] at hread ⊢
  rw [readNumber?, hread]
  · simp [hvalue]
  · intro s h
    exact hsign (List.cons.inj h).1

/-! ### Strings -/

/-- A piece of a string literal that adds one character to whatever the pieces after it denote. -/
def Piece.Denotes (piece : Piece) (c : Char) : Prop :=
  ∀ pieces, joinUnits (piece :: pieces) = (joinUnits pieces).map (c :: ·)

theorem Piece.denotes_char (c : Char) : (Piece.char c).Denotes c := fun _ => by
  rw [joinUnits]

/-- A unit below the surrogates stands for itself, whatever follows it. -/
theorem Piece.denotes_unit {c : Char} (h : c.toNat < 0xD800) : (Piece.unit c.toNat).Denotes c := by
  intro pieces
  have hleading : isLeading c.toNat = false := by
    simp [isLeading]; omega
  have htrailing : isTrailing c.toNat = false := by
    simp [isTrailing]; omega
  match pieces with
  | [] => simp [joinUnits, hleading, htrailing]
  | .char _ :: _ => simp [joinUnits, hleading, htrailing]
  | .unit _ :: _ => simp [joinUnits, hleading, htrailing]

theorem digitValue?_hexDigit : ∀ n < 16, digitValue? 16 (hexDigit n) = some n := by
  decide

theorem readNatural?_hexDigits {n : Nat} (h : n < 256) :
    readNatural? 16 ['0', '0', hexDigit (n / 16), hexDigit (n % 16)] = some n := by
  have hhigh : digitValue? 16 (hexDigit (n / 16)) = some (n / 16) :=
    digitValue?_hexDigit _ (by omega)
  have hlow : digitValue? 16 (hexDigit (n % 16)) = some (n % 16) :=
    digitValue?_hexDigit _ (by omega)
  have hzero : digitValue? 16 '0' = some 0 := digitValue?_hexDigit 0 (by decide)
  simp [readNatural?, hhigh, hlow, hzero]
  omega

/-- The three written forms of a character. -/
theorem escape_cases (c : Char) :
    (∃ e, escape c = ['\\', e] ∧ shortEscape? e = some c) ∨
    (c.toNat < 32 ∧
      escape c = ['\\', 'u', '0', '0', hexDigit (c.toNat / 16), hexDigit (c.toNat % 16)]) ∨
    (32 ≤ c.toNat ∧ c ≠ '"' ∧ c ≠ '\\' ∧ escape c = [c]) := by
  have hofNat (n : Nat) (h : c.toNat = n) : Char.ofNat n = c := by
    rw [← h, Char.ofNat_toNat]
  fun_cases escape c with
  | case1 hquote => exact .inl ⟨'"', rfl, by rw [hquote]; rfl⟩
  | case2 _ hbackslash => exact .inl ⟨'\\', rfl, by rw [hbackslash]; rfl⟩
  | case3 _ _ hnewline => exact .inl ⟨'n', rfl, by rw [hnewline]; rfl⟩
  | case4 _ _ _ hreturn => exact .inl ⟨'r', rfl, by rw [hreturn]; rfl⟩
  | case5 _ _ _ _ htab => exact .inl ⟨'t', rfl, by rw [htab]; rfl⟩
  | case6 _ _ _ _ _ hbackspace => exact .inl ⟨'b', rfl, by rw [← hofNat 8 hbackspace]; rfl⟩
  | case7 _ _ _ _ _ _ hfeed => exact .inl ⟨'f', rfl, by rw [← hofNat 12 hfeed]; rfl⟩
  | case8 _ _ _ _ _ _ _ hcontrol => exact .inr (.inl ⟨hcontrol, rfl⟩)
  | case9 hquote hbackslash _ _ _ _ _ hcontrol =>
    exact .inr (.inr ⟨by omega, hquote, hbackslash, rfl⟩)

theorem readLiteral?_short {e c : Char} (h : shortEscape? e = some c) (s : List Char) :
    readLiteral? ('\\' :: e :: s) =
      (readLiteral? s).map fun read => (.char c :: read.1, read.2) := by
  have hunit : e ≠ 'u' := by
    rintro rfl
    cases h
  rw [readLiteral?, h]
  · cases readLiteral? s <;> rfl
  · intro _ _ _ _ _ heq _
    exact hunit heq

theorem readLiteral?_unit {n : Nat} (h : n < 256) (s : List Char) :
    readLiteral? ('\\' :: 'u' :: '0' :: '0' :: hexDigit (n / 16) :: hexDigit (n % 16) :: s) =
      (readLiteral? s).map fun read => (.unit n :: read.1, read.2) := by
  rw [readLiteral?, readNatural?_hexDigits h]
  cases readLiteral? s <;> rfl

theorem readLiteral?_self {c : Char} (hcontrol : 32 ≤ c.toNat) (hquote : c ≠ '"')
    (hbackslash : c ≠ '\\') (s : List Char) :
    readLiteral? (c :: s) = (readLiteral? s).map fun read => (.char c :: read.1, read.2) := by
  have hallowed : ¬ (c.toNat < 32 || c = '\\') = true := by
    simpa using ⟨hcontrol, hbackslash⟩
  rw [readLiteral?, if_neg hallowed]
  · cases readLiteral? s <;> rfl
  all_goals grind

/-- A character that is written is read as one piece that denotes it. -/
theorem readLiteral?_escape (c : Char) : ∃ piece : Piece, piece.Denotes c ∧
    ∀ s, readLiteral? (escape c ++ s) =
      (readLiteral? s).map fun read => (piece :: read.1, read.2) := by
  obtain ⟨e, hescape, hshort⟩ | ⟨hcontrol, hescape⟩ | ⟨hcontrol, hquote, hbackslash, hescape⟩ :=
    escape_cases c
  · refine ⟨.char c, Piece.denotes_char c, fun s => ?_⟩
    rw [hescape]
    exact readLiteral?_short hshort s
  · refine ⟨.unit c.toNat, Piece.denotes_unit (by omega), fun s => ?_⟩
    rw [hescape]
    exact readLiteral?_unit (by omega) s
  · refine ⟨.char c, Piece.denotes_char c, fun s => ?_⟩
    rw [hescape]
    exact readLiteral?_self hcontrol hquote hbackslash s

/-- The pieces of a written text denote it. -/
theorem readLiteral?_flatMap_escape (text rest : List Char) : ∃ pieces,
    readLiteral? (text.flatMap escape ++ '"' :: rest) = some (pieces, rest) ∧
      joinUnits pieces = some text := by
  induction text with
  | nil => exact ⟨[], by simp [readLiteral?], by simp [joinUnits]⟩
  | cons c text ih =>
    obtain ⟨pieces, hread, hjoin⟩ := ih
    obtain ⟨piece, hdenotes, hescape⟩ := readLiteral?_escape c
    refine ⟨piece :: pieces, ?_, ?_⟩
    · rw [List.flatMap_cons, List.append_assoc, hescape, hread]
      rfl
    · rw [hdenotes, hjoin]
      rfl

/-- A string is read back from its literal, whatever characters it holds. -/
theorem readString?_escape (text : String) (rest : List Char) :
    readString? (text.toList.flatMap escape ++ '"' :: rest) = some (some text, rest) := by
  obtain ⟨pieces, hread, hjoin⟩ := readLiteral?_flatMap_escape text.toList rest
  simp [readString?, hread, hjoin]

/-! ### Documents -/

mutual

/-- Whether every string and every name in a document is text, and every number an unsigned
integer. -/
def isPlain : Json → Bool
  | number _ => false
  | string s => s.isSome
  | array items => arePlain items
  | object fields => fieldsArePlain fields
  | null | bool _ | natural _ => true

def arePlain : List Json → Bool
  | [] => true
  | item :: rest => item.isPlain && arePlain rest

def fieldsArePlain : List (Option String × Json) → Bool
  | [] => true
  | (name, value) :: rest => name.isSome && value.isPlain && fieldsArePlain rest

end

theorem compactChars_natural (n : Nat) : (natural n).compactChars = Nat.toDigits 10 n := by
  simp [compactChars]

theorem skipBlanks_cons {c : Char} (h : isBlank c = false) (s : List Char) :
    skipBlanks (c :: s) = c :: s := by
  simp [skipBlanks, h]

theorem isBlank_of_isDigit {c : Char} (h : c.isDigit = true) : isBlank c = false := by
  by_contra hblank
  rw [Bool.not_eq_false, isBlank] at hblank
  simp only [Bool.or_eq_true, decide_eq_true_eq] at hblank
  obtain ((rfl | rfl) | rfl) | rfl := hblank <;> cases h

/-- A text that starts with a character that is no blank and closes no array. -/
def Starts : List Char → Prop
  | [] => False
  | c :: _ => isBlank c = false ∧ c ≠ ']'

theorem starts_compactChars {document : Json} (h : document.isPlain = true) (rest : List Char) :
    Starts (document.compactChars ++ rest) := by
  cases document with
  | null => exact ⟨by decide, by decide⟩
  | bool value => cases value <;> exact ⟨by decide, by decide⟩
  | natural n =>
    obtain ⟨c, digits, heq, hdigit⟩ := exists_digit_cons n
    rw [compactChars_natural, heq]
    refine ⟨isBlank_of_isDigit hdigit, ?_⟩
    rintro rfl
    cases hdigit
  | number _ => cases h
  | string s => exact ⟨by decide, by decide⟩
  | array items => cases items <;> exact ⟨by decide, by decide⟩
  | object fields => cases fields <;> exact ⟨by decide, by decide⟩

theorem readValue?_of_isDigit {c : Char} (h : c.isDigit = true) (fuel : Nat) (s : List Char) :
    readValue? (fuel + 1) (c :: s) = readNumber? (c :: s) := by
  rw [readValue?, skipBlanks_cons (isBlank_of_isDigit h)]
  split
  -- every case but the last asks for a first character that is no digit
  all_goals
    try
      rename_i heq
      obtain ⟨rfl, -⟩ := List.cons.inj heq
      cases h
  rfl

theorem readValue?_natural (n fuel : Nat) {rest : List Char} (hends : Ends rest) :
    readValue? (fuel + 1) ((natural n).compactChars ++ rest) = some (natural n, rest) := by
  have hread := readNumber?_toDigits n hends
  obtain ⟨c, digits, heq, hdigit⟩ := exists_digit_cons n
  rw [compactChars_natural]
  rw [heq, List.cons_append] at hread ⊢
  rw [readValue?_of_isDigit hdigit, hread]

theorem readValue?_string (text : String) (fuel : Nat) (rest : List Char) :
    readValue? (fuel + 1) ((string (some text)).compactChars ++ rest) =
      some (string (some text), rest) := by
  have hread := readString?_escape text rest
  simp only [compactChars, quoteOption, quote, Option.getD_some, List.cons_append,
    List.append_assoc, List.nil_append]
  rw [readValue?, skipBlanks_cons (by decide)]
  simp only [hread, Option.map_some]

/-- An opening bracket in front of anything but a closing one starts a row of items. -/
theorem readValue?_bracket {s : List Char} (h : Starts s) (fuel : Nat) :
    readValue? (fuel + 1) ('[' :: s) =
      (readItems? fuel s).map fun read => (array read.1, read.2) := by
  match s with
  | c :: s =>
    obtain ⟨hblank, hclose⟩ := h
    rw [readValue?, skipBlanks_cons (by decide)]
    simp only [skipBlanks_cons hblank]
    split
    · rename_i heq
      exact absurd (List.cons.inj heq).1 hclose
    · rfl

/-- An opening brace in front of a name starts a row of fields. -/
theorem readValue?_brace (name : String) (s : List Char) (fuel : Nat) :
    readValue? (fuel + 1) ('\x7b' :: (quote name ++ s)) =
      (readFields? fuel (quote name ++ s)).map fun read => (object read.1, read.2) := by
  rw [readValue?, skipBlanks_cons (by decide)]
  simp only [quote, List.cons_append, skipBlanks_cons (show isBlank '"' = false by decide)]
  rfl

theorem readItems?_last {fuel : Nat} {s rest : List Char} {item : Json}
    (h : readValue? fuel s = some (item, ']' :: rest)) :
    readItems? (fuel + 1) s = some ([item], rest) := by
  simp [readItems?, h, skipBlanks_cons (show isBlank ']' = false by decide)]

theorem readItems?_next {fuel : Nat} {s t rest : List Char} {item : Json} {items : List Json}
    (h : readValue? fuel s = some (item, ',' :: t))
    (hnext : readItems? fuel t = some (items, rest)) :
    readItems? (fuel + 1) s = some (item :: items, rest) := by
  simp [readItems?, h, hnext, skipBlanks_cons (show isBlank ',' = false by decide)]

theorem readFields?_last {fuel : Nat} (name : String) {s rest : List Char} {value : Json}
    (h : readValue? fuel s = some (value, '\x7d' :: rest)) :
    readFields? (fuel + 1) (quote name ++ ':' :: s) = some ([(some name, value)], rest) := by
  simp [readFields?, quote, readString?_escape, h, skipBlanks, isBlank]

theorem readFields?_next {fuel : Nat} (name : String) {s t rest : List Char} {value : Json}
    {fields : List (Option String × Json)} (h : readValue? fuel s = some (value, ',' :: t))
    (hnext : readFields? fuel t = some (fields, rest)) :
    readFields? (fuel + 1) (quote name ++ ':' :: s) =
      some ((some name, value) :: fields, rest) := by
  simp [readFields?, quote, readString?_escape, h, hnext, skipBlanks, isBlank]

mutual

/-- A document is read back from its written form, and nothing behind it is touched. -/
theorem readValue?_compactChars (fuel : Nat) (document : Json) (rest : List Char)
    (hplain : document.isPlain = true) (hends : Ends rest)
    (hfuel : document.compactChars.length ≤ fuel) :
    readValue? fuel (document.compactChars ++ rest) = some (document, rest) := by
  match fuel, document with
  -- No document is written as nothing.
  | 0, document =>
    have hstarts := starts_compactChars hplain []
    rw [List.eq_nil_of_length_eq_zero (Nat.le_zero.mp hfuel)] at hstarts
    exact hstarts.elim
  | fuel + 1, null => rfl
  | fuel + 1, bool true => rfl
  | fuel + 1, bool false => rfl
  | fuel + 1, natural n => exact readValue?_natural n fuel hends
  | fuel + 1, number _ => cases hplain
  | fuel + 1, string none => cases hplain
  | fuel + 1, string (some text) => exact readValue?_string text fuel rest
  | fuel + 1, array [] => rfl
  | fuel + 1, object [] => rfl
  | fuel + 1, array (item :: items) =>
    have hitem : item.isPlain = true := by
      simp_all [isPlain, arePlain]
    have hread := readItems?_compactItems fuel item items rest hplain
      (by simpa [compactChars] using hfuel)
    rw [compactChars, List.cons_append, List.append_assoc,
      readValue?_bracket (starts_compactChars hitem _), hread, Option.map_some]
  | fuel + 1, object ((none, _) :: _) => cases hplain
  | fuel + 1, object ((some name, value) :: fields) =>
    have hread := readFields?_compactFields fuel name value fields rest hplain
      (by simp [compactChars] at hfuel ⊢; omega)
    simp only [compactChars, quoteOption, Option.getD_some, List.cons_append, List.append_assoc]
    rw [readValue?_brace, hread, Option.map_some]

/-- The items of an array are read back, the first of them and all that follow. -/
theorem readItems?_compactItems (fuel : Nat) (item : Json) (items : List Json) (rest : List Char)
    (hplain : arePlain (item :: items) = true)
    (hfuel : (item.compactChars ++ compactItems items).length ≤ fuel) :
    readItems? fuel (item.compactChars ++ (compactItems items ++ rest)) =
      some (item :: items, rest) := by
  rw [arePlain, Bool.and_eq_true] at hplain
  rw [List.length_append] at hfuel
  match fuel, items with
  | 0, items => cases items <;> simp [compactItems] at hfuel
  | fuel + 1, [] =>
    have hread := readValue?_compactChars fuel item (compactItems [] ++ rest) hplain.1
      (ends_compactItems [] rest) (by simpa [compactItems] using hfuel)
    exact readItems?_last hread
  | fuel + 1, next :: items =>
    simp only [compactItems, List.length_cons] at hfuel
    have hread := readValue?_compactChars fuel item (compactItems (next :: items) ++ rest) hplain.1
      (ends_compactItems (next :: items) rest) (by omega)
    have hnext := readItems?_compactItems fuel next items rest hplain.2 (by omega)
    rw [compactItems, List.cons_append, List.append_assoc] at hread ⊢
    exact readItems?_next hread hnext

/-- The fields of an object are read back, the first of them and all that follow. -/
theorem readFields?_compactFields (fuel : Nat) (name : String) (value : Json)
    (fields : List (Option String × Json)) (rest : List Char)
    (hplain : fieldsArePlain ((some name, value) :: fields) = true)
    (hfuel : (value.compactChars ++ compactFields fields).length ≤ fuel) :
    readFields? fuel (quote name ++ ':' :: (value.compactChars ++ (compactFields fields ++ rest))) =
      some ((some name, value) :: fields, rest) := by
  simp only [fieldsArePlain, Bool.and_eq_true] at hplain
  rw [List.length_append] at hfuel
  match fuel, fields with
  | 0, fields => cases fields <;> simp [compactFields] at hfuel
  | fuel + 1, [] =>
    have hread := readValue?_compactChars fuel value (compactFields [] ++ rest) hplain.1.2
      (ends_compactFields [] rest) (by simpa [compactFields] using hfuel)
    exact readFields?_last name hread
  | fuel + 1, (none, _) :: fields => simp [fieldsArePlain] at hplain
  | fuel + 1, (some next, second) :: fields =>
    simp only [compactFields, List.length_cons, List.length_append] at hfuel
    have hread := readValue?_compactChars fuel value
      (compactFields ((some next, second) :: fields) ++ rest) hplain.1.2
      (ends_compactFields _ rest) (by omega)
    have hnext := readFields?_compactFields fuel next second fields rest hplain.2
      (by rw [List.length_append]; omega)
    simp only [compactFields, quoteOption, Option.getD_some, List.cons_append,
      List.append_assoc] at hread ⊢
    exact readFields?_next name hread hnext

end

/-- **A document in which every string has a text and every number is an unsigned integer is read
back from its written form.** -/
theorem parse?_compact {document : Json} (h : document.isPlain = true) :
    parse? document.compact = some document := by
  have hread := readValue?_compactChars (document.compactChars.length + 1) document [] h trivial
    (Nat.le_succ _)
  rw [List.append_nil] at hread
  rw [parse?, compact, String.toList_ofList, hread]
  rfl

end Json

end Turnwise
