import Turnwise.Config.Document
import Turnwise.Config.Setting
import Mathlib

/-!
# Scalars under both readings of a configuration

A field of a configuration is read from the same scalar in two ways: strictly, from its text and
with the field's type in mind, or by what the scalar denotes where no type is known. The results are
compared here, one type after the other. Each lemma starts from a scalar that the strict reading
accepts and that denotes a value of the field's type.

The two ways disagree on what a number may look like, but where both accept a text as a number, it
is the same one: behind the sign and the mark for the base, both read digits.
-/

namespace Turnwise

open Yaml (Node Value)

/-! ### Digits -/

theorem toNat_le_of_range {low high c : Char} (h : (low ≤ c && c ≤ high) = true) :
    low.toNat ≤ c.toNat := by
  simp only [Bool.and_eq_true, decide_eq_true_eq] at h
  simpa [Char.le_def, UInt32.le_iff_toNat_le] using h.1

/-- A letter is worth at least ten. -/
theorem isDigit_of_digitValue? {c : Char} {d : Nat} (h : digitValue? 10 c = some d) :
    c.isDigit = true := by
  simp only [digitValue?, Option.filter_eq_some_iff, decide_eq_true_eq] at h
  obtain ⟨hvalue, hlt⟩ := h
  split at hvalue
  · next hrange => simpa [Char.isDigit, Char.le_def] using hrange
  · split at hvalue
    · next hrange =>
      have hlow : 97 ≤ c.toNat := toNat_le_of_range hrange
      simp only [Option.some.injEq] at hvalue
      omega
    · split at hvalue
      · next hrange =>
        have hlow : 65 ≤ c.toNat := toNat_le_of_range hrange
        simp only [Option.some.injEq] at hvalue
        omega
      · cases hvalue

theorem isDigit_of_readNatural? {s : List Char} {n : Nat} (h : readNatural? 10 s = some n) :
    ∀ c ∈ s, c.isDigit = true := by
  have hfold (s : List Char) (acc n : Nat)
      (h : s.foldlM (fun n c => (digitValue? 10 c).map (10 * n + ·)) acc = some n) :
      ∀ c ∈ s, c.isDigit = true := by
    induction s generalizing acc with
    | nil => simp
    | cons c s ih =>
      simp only [List.foldlM_cons, Option.bind_eq_bind, Option.bind_eq_some_iff,
        Option.map_eq_some_iff] at h
      obtain ⟨_, ⟨d, hd, rfl⟩, hrest⟩ := h
      simpa [isDigit_of_digitValue? hd] using ih _ hrest
  cases s with
  | nil => simp
  | cons c s => exact hfold (c :: s) 0 n h

theorem readNatural?_sign {sign : Char} (h : sign = '-' ∨ sign = '+') (base : Nat)
    (s : List Char) : readNatural? base (sign :: s) = none := by
  have hvalue : digitValue? base sign = none := by
    obtain rfl | rfl := h <;> rfl
  simp [readNatural?, hvalue]

/-- A text with a character that is no digit is no natural number. -/
theorem readNatural?_eq_none {c : Char} {s : List Char} (hmem : c ∈ s) (h : c.isDigit = false) :
    readNatural? 10 s = none := by
  cases hread : readNatural? 10 s with
  | none => rfl
  | some n => simp [isDigit_of_readNatural? hread c hmem] at h

/-- A natural number has no sign, and so is the integer that its digits make. -/
theorem readInteger?_of_readNatural? {base : Nat} {s : List Char} {n : Nat}
    (h : readNatural? base s = some n) : readInteger? base s = some (n : Int) := by
  unfold readInteger?
  split
  · simp [readNatural?_sign] at h
  · simp [readNatural?_sign] at h
  · simp [h]

/-- Where the digits of an integer make a natural number, they make the same one. -/
theorem eq_of_readInteger? {base : Nat} {s : List Char} {n : Nat} {z : Int}
    (hn : readNatural? base s = some n) (hz : readInteger? base s = some z) : z = n := by
  rw [readInteger?_of_readNatural? hn] at hz
  exact (Option.some.inj hz).symm

/-! ### Integers -/

/-- A text without the plus sign in front of it. -/
def afterPlus : List Char → List Char
  | '+' :: rest => rest
  | s => s

/-- The bases other than ten, with their marks. -/
def baseMarks : List (Char × Nat) := [('x', 16), ('o', 8), ('b', 2)]

theorem isDigit_of_mem_baseMarks {mark : Char} {base : Nat} (h : (mark, base) ∈ baseMarks) :
    mark.isDigit = false := by
  simp only [baseMarks, List.mem_cons, Prod.mk.injEq, List.not_mem_nil, or_false] at h
  obtain ⟨rfl, -⟩ | ⟨rfl, -⟩ | ⟨rfl, -⟩ := h <;> rfl

/-- A mark for a base is no part of a decimal number. -/
theorem readNatural?_mark {mark : Char} {base : Nat} (h : (mark, base) ∈ baseMarks)
    (digits : List Char) : readNatural? 10 ('0' :: mark :: digits) = none :=
  readNatural?_eq_none (by simp) (isDigit_of_mem_baseMarks h)

/-- What a text is that is accepted as a natural number: decimal digits, or the digits of another
base behind its mark. -/
theorem readUnsigned?_cases {s : List Char} {n : Nat} (h : readUnsigned? s = some n) :
    readNatural? 10 (afterPlus s) = some n ∨
      ∃ mark base digits, (mark, base) ∈ baseMarks ∧ afterPlus s = '0' :: mark :: digits ∧
        readNatural? base digits = some n := by
  have hword {value? : Option Nat}
      (h : (value?.bind fun v => if v < UInt64.size then some v else none) = some n) :
      value? = some n := by
    obtain ⟨v, hv, hlt⟩ := Option.bind_eq_some_iff.mp h
    split at hlt
    · rw [hv, hlt]
    · cases hlt
  have hplus (s : List Char) {body : List Char}
      (h : (match s with | '+' :: rest => rest | _ => s) = body) : afterPlus s = body := by
    rw [← h]
    unfold afterPlus
    split <;> rfl
  simp only [readUnsigned?, Option.bind_eq_bind] at h
  split at h
  · next digits hbody =>
    exact .inr ⟨'x', 16, digits, by simp [baseMarks], hplus s hbody, hword h⟩
  · next digits hbody =>
    exact .inr ⟨'o', 8, digits, by simp [baseMarks], hplus s hbody, hword h⟩
  · next digits hbody =>
    exact .inr ⟨'b', 2, digits, by simp [baseMarks], hplus s hbody, hword h⟩
  · next hbody => exact .inl (by rw [hplus s hbody]; exact hword h)
  · cases h
  · exact .inl (by rw [hplus s rfl]; exact hword h)

/-- What a text is that denotes an integer: a decimal one, or the digits of another base behind its
mark. -/
theorem markedInteger?_cases {s : List Char} {z : Int} (h : Value.markedInteger? s = some z) :
    readInteger? 10 (afterPlus s) = some z ∨
      ∃ mark base digits, (mark, base) ∈ baseMarks ∧ afterPlus s = '0' :: mark :: digits ∧
        readInteger? base digits = some z := by
  have hword {base : Nat} {s : List Char} (h : Value.readWord? base s = some z) :
      readInteger? base s = some z := (Option.filter_eq_some_iff.mp h).1
  simp only [Value.markedInteger?, Option.orElse_eq_orElse, Option.orElse_eq_or,
    Option.or_eq_some_iff] at h
  rcases h with h | ⟨-, h⟩
  · split at h
    · next digits => exact .inr ⟨'x', 16, digits, by simp [baseMarks], rfl, hword h⟩
    · next digits => exact .inr ⟨'o', 8, digits, by simp [baseMarks], rfl, hword h⟩
    · exact .inl (hword h)
    · cases h
  · have hz := hword h
    unfold afterPlus
    split
    · -- Behind a plus sign there are only digits.
      obtain ⟨n, hn, rfl⟩ := Option.map_eq_some_iff.mp hz
      exact .inl (readInteger?_of_readNatural? hn)
    · exact .inl hz

/-- A word is an integer also where marks are allowed. -/
theorem markedInteger?_of_readWord? {s : List Char} {z : Int}
    (h : Value.readWord? 10 s = some z) : Value.markedInteger? s = some z := by
  have hmark {mark : Char} {base : Nat} (hmark : (mark, base) ∈ baseMarks) (digits : List Char) :
      Value.readWord? 10 ('0' :: mark :: digits) = none := by
    simp [Value.readWord?, readInteger?, readNatural?_mark hmark]
  unfold Value.markedInteger?
  split
  · simp [hmark (show ('x', 16) ∈ baseMarks by simp [baseMarks])] at h
  · simp [hmark (show ('o', 8) ∈ baseMarks by simp [baseMarks])] at h
  · next digits =>
    obtain ⟨hread, hword⟩ := Option.filter_eq_some_iff.mp h
    obtain ⟨n, hn, rfl⟩ := Option.map_eq_some_iff.mp hread
    have hdigits : Value.readWord? 10 digits = some (n : Int) :=
      Option.filter_eq_some_iff.mpr ⟨readInteger?_of_readNatural? hn, hword⟩
    simp [hdigits]
  · simp [h]

/-- Where a text is accepted as a natural number and denotes an integer, it is the same number. -/
theorem eq_of_readUnsigned? {s : List Char} {n : Nat} {z : Int} (hn : readUnsigned? s = some n)
    (hz : Value.markedInteger? s = some z) : z = n := by
  rcases readUnsigned?_cases hn with hn | ⟨mark, base, digits, hmark, hbody, hn⟩ <;>
    rcases markedInteger?_cases hz with hz | ⟨mark', base', digits', hmark', hbody', hz⟩
  · exact eq_of_readInteger? hn hz
  -- What has a mark is decimal for neither reading.
  · simp [hbody', readNatural?_mark hmark'] at hn
  · simp [hbody, readInteger?, readNatural?_mark hmark] at hz
  · rw [hbody, List.cons_inj_right, List.cons.injEq] at hbody'
    obtain ⟨rfl, rfl⟩ := hbody'
    obtain rfl : base = base' := by
      simp only [baseMarks, List.mem_cons, Prod.mk.injEq, List.not_mem_nil, or_false] at *
      grind
    exact eq_of_readInteger? hn hz

/-! ### Numerals -/

namespace Numeral

theorem spanDigits_eq (s : List Char) :
    spanDigits s = (s.takeWhile Char.isDigit, s.dropWhile Char.isDigit) :=
  List.span_eq_takeWhile_dropWhile Char.isDigit s

theorem spanDigits_of_isDigit {s : List Char} (h : ∀ c ∈ s, c.isDigit = true) :
    spanDigits s = (s, []) := by
  rw [spanDigits_eq, List.takeWhile_eq_self_iff.mpr h, List.dropWhile_eq_nil_iff.mpr h]

theorem toLower_of_isDigit {c : Char} (h : c.isDigit = true) : c.toLower = c := by
  apply Char.toLower_eq_of_not_isUpper
  simp only [Char.isDigit, Char.isUpper, Bool.and_eq_true, decide_eq_true_eq] at *
  grind

/-- Digits alone are a numeral. -/
theorem readUnsigned?_of_readNatural? {s : List Char} {n : Nat}
    (h : readNatural? 10 s = some n) :
    readUnsigned? false s = some (.finite false ⟨n, 0⟩) := by
  have hdigits := isDigit_of_readNatural? h
  have hname : s.map Char.toLower = s := by
    rw [List.map_congr_left fun c hc => toLower_of_isDigit (hdigits c hc), List.map_id']
  have hne (name : List Char) (hmem : 'n' ∈ name) : s ≠ name := by
    rintro rfl
    exact absurd (hdigits 'n' hmem) (by decide)
  have hmagnitude : readMagnitude? s = some ⟨n, 0⟩ := by
    simp [readMagnitude?, spanDigits_of_isDigit hdigits, h, readExponent?]
  have hinf := hne "inf".toList (by decide)
  have hinfinity := hne "infinity".toList (by decide)
  have hnan := hne "nan".toList (by decide)
  simp only [readUnsigned?, hname, hinf, hinfinity, hnan, decide_false, Bool.or_self,
    Bool.false_eq_true, if_false, hmagnitude, Option.map_some]

/-- A marked number is no numeral. -/
theorem readUnsigned?_mark {mark : Char} {base : Nat} (h : (mark, base) ∈ baseMarks)
    (digits : List Char) : readUnsigned? false ('0' :: mark :: digits) = none := by
  simp only [baseMarks, List.mem_cons, Prod.mk.injEq, List.not_mem_nil, or_false] at h
  obtain ⟨rfl, -⟩ | ⟨rfl, -⟩ | ⟨rfl, -⟩ := h <;>
    simp [readUnsigned?, readMagnitude?, spanDigits_eq, readExponent?]

theorem readUnsigned?_sign {sign : Char} (h : sign = '-' ∨ sign = '+') (s : List Char) :
    readUnsigned? false (sign :: s) = none := by
  obtain rfl | rfl := h <;>
    simp [readUnsigned?, readMagnitude?, spanDigits_eq, readNatural?]

theorem read?_eq_readUnsigned? {s : List Char} (h : s.head? ≠ some '-') :
    read? s = readUnsigned? false (afterPlus s) := by
  unfold read? afterPlus
  split
  · simp at h
  · rfl
  · split
    · simp_all
    · rfl

/-- Without a second sign, a plus sign makes no difference to a numeral. -/
theorem read?_plus {s : List Char} (hplus : ∀ rest, s ≠ '+' :: rest)
    (hminus : ∀ rest, s ≠ '-' :: rest) : read? ('+' :: s) = read? s := by
  change readUnsigned? false s = read? s
  unfold read?
  split
  · exact absurd rfl (hminus _)
  · exact absurd rfl (hplus _)
  · rfl

end Numeral

/-- Where a text is a numeral and denotes an integer, it is the same number. Minus zero is no
integer. -/
theorem eq_of_read?_of_markedInteger? {s : List Char} {x : Numeral} {z : Int}
    (hx : Numeral.read? s = some x) (hz : Value.markedInteger? s = some z)
    (hsign : s.head? ≠ some '-') : x = .finite (z < 0) ⟨z.natAbs, 0⟩ := by
  rw [Numeral.read?_eq_readUnsigned? hsign] at hx
  rcases markedInteger?_cases hz with hz | ⟨mark, base, digits, hmark, hbody, -⟩
  · unfold readInteger? at hz
    split at hz
    · next hbody => simp [hbody, Numeral.readUnsigned?_sign] at hx
    · next hbody => simp [hbody, Numeral.readUnsigned?_sign] at hx
    · obtain ⟨n, hn, rfl⟩ := Option.map_eq_some_iff.mp hz
      rw [Numeral.readUnsigned?_of_readNatural? hn] at hx
      rw [← Option.some.inj hx]
      simp
  · simp [hbody, Numeral.readUnsigned?_mark hmark] at hx

/-- The names of infinity and of what is not a number, in strictly read fields. -/
def doubleNames : List (List Char) :=
  [".nan", ".NaN", ".NAN", ".inf", ".Inf", ".INF", "+.inf", "+.Inf", "+.INF", "-.inf", "-.Inf",
    "-.INF"].map String.toList

theorem mem_doubleNames_of_infinity : ∀ name ∈ [".inf", ".Inf", ".INF"].map String.toList,
    '-' :: name ∈ doubleNames ∧ '+' :: name ∈ doubleNames ∧ name ∈ doubleNames := by decide

/-- The names are no numbers to the other reading. -/
theorem eq_none_of_mem_doubleNames : ∀ name ∈ doubleNames,
    Value.markedInteger? name = none ∧ Numeral.read? name = none := by decide

/-- What a text is that is accepted as a floating-point number: one of the names, or a numeral. -/
theorem readDouble?_cases {s : List Char} {x : Float} (h : readDouble? s = some x) :
    s ∈ doubleNames ∨ ∃ y, Numeral.read? s = some y ∧ x = y.toDouble := by
  -- What remains without the plus sign is a numeral just if the text is one.
  have hbody {body : List Char} (h : (if [".inf", ".Inf", ".INF"].map String.toList |>.contains body
      then some (Numeral.infinite false).toDouble
      else (Numeral.read? body).bind fun y =>
        if y.toDouble.isFinite then some y.toDouble else none) = some x) :
      body ∈ [".inf", ".Inf", ".INF"].map String.toList ∨
        ∃ y, Numeral.read? body = some y ∧ x = y.toDouble := by
    split at h
    · next hname => exact .inl (by simpa using hname)
    · obtain ⟨y, hy, hfinite⟩ := Option.bind_eq_some_iff.mp h
      split at hfinite
      · exact .inr ⟨y, hy, (Option.some.inj hfinite).symm⟩
      · cases hfinite
  unfold readDouble? at h
  simp only [Option.bind_eq_bind] at h
  split at h
  · next hnan =>
    left
    rw [← String.toList_ofList (l := s)]
    simp only [List.contains_eq_mem, decide_eq_true_eq, List.mem_cons, List.not_mem_nil, or_false]
      at hnan
    obtain hs | hs | hs := hnan <;> simp [hs, doubleNames]
  · split at h
    · next hnegative =>
      simp only [Bool.and_eq_true, beq_iff_eq, List.contains_eq_mem, decide_eq_true_eq] at hnegative
      obtain ⟨hhead, hname⟩ := hnegative
      obtain ⟨rest, rfl⟩ := List.head?_eq_some_iff.mp hhead
      exact .inl (mem_doubleNames_of_infinity _ hname).1
    · split at h
      · cases h
      · cases h
      · next rest hplus hminus _ _ =>
        obtain hname | ⟨y, hy, hx⟩ := hbody h
        · exact .inl (mem_doubleNames_of_infinity _ hname).2.1
        · exact .inr ⟨y, by rwa [Numeral.read?_plus hplus hminus], hx⟩
      · obtain hname | hnumeral := hbody h
        · exact .inl (mem_doubleNames_of_infinity _ hname).2.2
        · exact .inr hnumeral

/-! ### What a scalar denotes -/

/-- What is known of a scalar that denotes a value: only plain ones denote anything but their text,
and their text is a word for the value. -/
inductive Denotes (tag : Option Yaml.Tag) : Yaml.ScalarStyle → List Char → Value → Prop where
  | text (style : Yaml.ScalarStyle) (content : List Char) :
      Denotes tag style content (.text content)
  | lost (style : Yaml.ScalarStyle) (content : List Char) : Denotes tag style content .lost
  | null {content : List Char} (hword : Value.isNull content = true)
      (htag : ∀ t ∈ tag, t.isCore "null" = true) : Denotes tag .plain content .null
  | flag {content : List Char} {b : Bool} (hword : Value.readFlag? content = some b) :
      Denotes tag .plain content (.flag b)
  | integer {content : List Char} {z : Int} (hword : Value.markedInteger? content = some z)
      (htag : ∀ t ∈ tag, t.isCore "null" = false) : Denotes tag .plain content (.integer z)
  | real (content : List Char) : Denotes tag .plain content (.real content)

theorem denotes_ofPlain (content : List Char) :
    Denotes none .plain content (Value.ofPlain content) := by
  unfold Value.ofPlain
  split
  · next hword => exact .integer hword (by simp)
  · next hword => exact .flag hword
  · split
    · next hword => exact .null hword (by simp)
    · split
      · exact .real content
      · exact .text .plain content

theorem denotes_ofTagged (tag : Yaml.Tag) (content : List Char) :
    Denotes (some tag) .plain content (Value.ofTagged tag content) := by
  unfold Value.ofTagged
  split
  -- A tag outside the core schema leaves the text as it is.
  · exact .text .plain content
  · next hhandle =>
    have hcore (name : String) : tag.isCore name = (tag.suffix == name.toList) := by
      have hhandle : tag.handle = Yaml.Tag.corePrefix := by simpa using hhandle
      simp [Yaml.Tag.isCore, Yaml.Tag.text, hhandle]
    split
    · cases hword : Value.readFlag? content with
      | none => exact .lost .plain content
      | some b => exact .flag hword
    · next hsuffix =>
      cases hword : Value.readWord? 10 content with
      | none => exact .lost .plain content
      | some z =>
        refine .integer (markedInteger?_of_readWord? hword) ?_
        have hint : tag.suffix = "int".toList := by rw [← hsuffix, String.toList_ofList]
        simp [hcore, hint]
    · split
      · exact .real content
      · exact .lost .plain content
    · next hsuffix =>
      split
      · next hword =>
        refine .null hword ?_
        have hnull : tag.suffix = "null".toList := by rw [← hsuffix, String.toList_ofList]
        simp [hcore, hnull]
      · exact .lost .plain content
    · exact .text .plain content

theorem denotes_ofScalar (tag : Option Yaml.Tag) (style : Yaml.ScalarStyle) (content : List Char) :
    Denotes tag style content (Value.ofScalar tag style content) := by
  unfold Value.ofScalar
  split
  · exact denotes_ofPlain content
  · exact denotes_ofTagged _ content
  · exact .text style content

/-! ### Fields -/

/-- A text that says that there is no value is no integer. -/
theorem markedInteger?_of_isNullWord {s : List Char} (h : s.isEmpty = true ∨ isNullWord s = true) :
    Value.markedInteger? s = none := by
  obtain hempty | hword := h
  · rw [List.isEmpty_iff.mp hempty]
    rfl
  · have hs : s ∈ ["~", "null", "Null", "NULL"].map String.toList := by
      simp only [isNullWord, List.contains_eq_mem, decide_eq_true_eq] at hword
      exact List.mem_map.mpr ⟨_, hword, String.toList_ofList⟩
    have hnone : ∀ word ∈ ["~", "null", "Null", "NULL"].map String.toList,
        Value.markedInteger? word = none := by decide
    exact hnone s hs

section Fields

variable {tag : Option Yaml.Tag} {style : Yaml.ScalarStyle} {content : List Char}

theorem natural?_of_denotes {z : Int} {n : Nat} (hz : Denotes tag style content (.integer z))
    (hn : (Node.scalar tag style content).natural? = some n) :
    (Setting.integer z).natural? = some n := by
  cases hz with
  | integer hword _ =>
    have hzn : z = n := eq_of_readUnsigned? hn hword
    simp [Setting.natural?, hzn]

theorem flag?_of_denotes {b c : Bool} (hb : Denotes tag style content (.flag b))
    (hc : (Node.scalar tag style content).flag? = some c) : (Setting.flag b).flag? = some c := by
  cases hb with
  | flag hword =>
    unfold Value.readFlag? at hword
    split at hword
    · next htrue =>
      cases hword
      subst htrue
      exact hc
    · split at hword
      · next hfalse =>
        cases hword
        subst hfalse
        exact hc
      · cases hword

theorem text?_of_denotes {t : List Char} {value : String} (ht : Denotes tag style content (.text t))
    (hvalue : (Node.scalar tag style content).text? = some value) :
    (Setting.text (String.ofList t)).text? = some value := by
  cases ht with
  | text => exact hvalue

theorem single?_of_denotes_integer {z : Int} {x : Float32}
    (hz : Denotes tag style content (.integer z)) (hsign : content.head? ≠ some '-')
    (hx : (Node.scalar tag style content).single? = some x) :
    (Setting.integer z).single? = some x := by
  cases hz with
  | integer hword _ =>
    obtain ⟨value, hvalue, rfl⟩ := Option.map_eq_some_iff.mp hx
    obtain hname | ⟨y, hy, rfl⟩ := readDouble?_cases hvalue
    · rw [(eq_none_of_mem_doubleNames _ hname).1] at hword
      cases hword
    · rw [eq_of_read?_of_markedInteger? hy hword hsign]
      rfl

theorem single?_of_denotes_real {r : List Char} {y : Numeral} {x : Float32}
    (hr : Denotes tag style content (.real r)) (hy : Numeral.read? r = some y)
    (hx : (Node.scalar tag style content).single? = some x) :
    (Setting.real y.toDouble).single? = some x := by
  cases hr with
  | real =>
    obtain ⟨value, hvalue, rfl⟩ := Option.map_eq_some_iff.mp hx
    obtain hname | ⟨y', hy', rfl⟩ := readDouble?_cases hvalue
    · rw [(eq_none_of_mem_doubleNames _ hname).2] at hy
      cases hy
    · rw [hy] at hy'
      cases hy'
      rfl

theorem seed?_of_denotes_null {seed : Option UInt64} (hnull : Denotes tag style content .null)
    (hseed : (Node.scalar tag style content).seed? = some seed) :
    Setting.absent.seed? = some seed := by
  cases hnull with
  | null hword htag =>
    have hnullWord : isNullWord content = true := by
      simp only [Value.isNull, Bool.or_eq_true, decide_eq_true_eq] at hword
      obtain rfl | rfl := hword <;> decide
    cases tag with
    | none => simpa [Node.seed?, Setting.seed?, hnullWord] using hseed
    | some t => simpa [Node.seed?, Setting.seed?, hnullWord, htag t rfl] using hseed

theorem seed?_of_denotes_integer {z : Int} {seed : Option UInt64}
    (hz : Denotes tag style content (.integer z))
    (hseed : (Node.scalar tag style content).seed? = some seed) :
    (Setting.integer z).seed? = some seed := by
  have hnatural {n : Nat} (hn : (Node.scalar tag style content).natural? = some n) :
      (Setting.integer z).natural? = some n := natural?_of_denotes hz hn
  cases hz with
  | integer hword htag =>
    have hgiven : (content.isEmpty || isNullWord content) = false := by
      cases habsent : content.isEmpty || isNullWord content with
      | false => rfl
      | true => simp [markedInteger?_of_isNullWord (Bool.or_eq_true _ _ ▸ habsent)] at hword
    have hread : ((Node.scalar tag .plain content).natural?.map fun n => some n.toUInt64) =
        some seed := by
      cases tag with
      | none => simpa [Node.seed?, hgiven] using hseed
      | some t => simpa [Node.seed?, htag t rfl] using hseed
    obtain ⟨n, hn, rfl⟩ := Option.map_eq_some_iff.mp hread
    simp [Setting.seed?, hnatural hn]

/-- A policy is spelled the same way for both readings, except where it is a tag. -/
theorem selection?_of_denotes {t : List Char} {policy : WorkerSelection}
    (ht : Denotes tag style content (.text t)) (hname : (Node.policy? content).isSome)
    (hpolicy : (Node.scalar tag style content).selection? = some policy) :
    (Setting.text (String.ofList t)).selection? = some policy := by
  cases ht with
  | text =>
    obtain ⟨named, hnamed⟩ := Option.isSome_iff_exists.mp hname
    have hlabel : content = named.label.toList := by
      have := List.find?_some hnamed
      simp only [beq_iff_eq] at this
      exact this.symm
    have heq : named = policy := by
      unfold Node.selection? at hpolicy
      simp only at hpolicy
      split at hpolicy
      · obtain ⟨tagged, -, hpolicy⟩ := Option.bind_eq_some_iff.mp hpolicy
        have hgiven : (content.isEmpty || isNullWord content) = false := by
          rw [hlabel]
          cases named <;> decide
        simp [hgiven] at hpolicy
      · exact Option.some.inj (hnamed.symm.trans hpolicy)
    subst hlabel heq
    cases named <;> decide

end Fields

end Turnwise
