import Mathlib.Data.List.Induction
import Turnwise.Proofs.ByteModel

/-!
# Calls of the byte model as a whole

A batch is a list of entries for many slots, and a call either carries it out or refuses it. When it
is carried out is a condition on the entries of each slot by themselves (`ByteModel.Accepts`): the
tokens are in the vocabulary, and the positions count on from the end of the slot's row. What is
written then, and the rows after which logits are asked for (`ByteModel.askedRows`), is said of each
slot by itself as well.

So a call does not see how the entries of different slots are interleaved, and a batch can be cut in
two anywhere and computed in two calls (`ByteModel.compute_atomic`).
-/

namespace Turnwise

/-! ### Entries of a slot -/

/-- The entries that a batch has for a slot, in order. -/
def entriesFor (entries : List BatchEntry) (slot : Slot) : List BatchEntry :=
  entries.filter (·.slot = slot)

theorem tokensFor_eq_map (entries : List BatchEntry) (slot : Slot) :
    tokensFor entries slot = (entriesFor entries slot).map BatchEntry.token := rfl

theorem length_tokensFor (entries : List BatchEntry) (slot : Slot) :
    (tokensFor entries slot).length = (entriesFor entries slot).length := by
  rw [tokensFor_eq_map, List.length_map]

theorem mem_entriesFor_self {entries : List BatchEntry} {entry : BatchEntry} :
    entry ∈ entriesFor entries entry.slot ↔ entry ∈ entries := by
  simp [entriesFor]

theorem entriesFor_concat (entries : List BatchEntry) (entry : BatchEntry) (slot : Slot) :
    entriesFor (entries ++ [entry]) slot =
      if entry.slot = slot then entriesFor entries slot ++ [entry]
      else entriesFor entries slot := by
  by_cases h : entry.slot = slot <;> simp [entriesFor, h]

theorem tokensFor_entriesFor (entries : List BatchEntry) (slot : Slot) :
    tokensFor (entriesFor entries slot) slot = tokensFor entries slot := by
  rw [tokensFor, entriesFor, List.filter_filter]
  simp [tokensFor]

namespace ByteModel

variable {params : Params} {context context' : Context} {entries : List BatchEntry}
  {entry : BatchEntry} {logits : List Logits}

/-! ### Batches that are carried out -/

/-- The condition under which a batch is carried out. -/
structure Accepts (params : Params) (context : Context) (entries : List BatchEntry) : Prop where
  slots : ∀ entry ∈ entries, entry.slot.index < context.rows.length
  tokens : ∀ entry ∈ entries, entry.token < vocabularySize ∧ params.failOn ≠ some entry.token
  /-- The positions of each slot count on from the end of its row. -/
  positions : ∀ slot, (entriesFor entries slot).map BatchEntry.position =
    List.range' (context.row slot).length (entriesFor entries slot).length

/-- The entries that ask for logits, in order, each with its row up to and including its token. -/
def askedRows (context : Context) (entries : List BatchEntry) : List (BatchEntry × List Token) :=
  (entries.zipIdx.filter (·.1.wantLogits)).map fun (entry, i) =>
    (entry, context.row entry.slot ++ tokensFor (entries.take (i + 1)) entry.slot)

/-- The logits that a batch asks for, in the order in which it asks. -/
def requested (params : Params) (context : Context) (entries : List BatchEntry) : List Logits :=
  (askedRows context entries).map fun asked => logitsFor params asked.2

theorem accepts_nil (params : Params) (context : Context) : Accepts params context [] where
  slots _ h := absurd h List.not_mem_nil
  tokens _ h := absurd h List.not_mem_nil
  positions _ := rfl

theorem accepts_concat_iff :
    Accepts params context (entries ++ [entry]) ↔
      Accepts params context entries ∧ entry.slot.index < context.rows.length ∧
        (entry.token < vocabularySize ∧ params.failOn ≠ some entry.token) ∧
        entry.position =
          (context.row entry.slot ++ tokensFor entries entry.slot).length := by
  -- The positions of the entry's slot have one more at the end, all others are the same.
  have hpositions : ∀ slot, (entriesFor (entries ++ [entry]) slot).map BatchEntry.position =
      List.range' (context.row slot).length (entriesFor (entries ++ [entry]) slot).length ↔
        (entriesFor entries slot).map BatchEntry.position =
            List.range' (context.row slot).length (entriesFor entries slot).length ∧
          (entry.slot = slot → entry.position =
            (context.row slot).length + (entriesFor entries slot).length) := by
    intro slot
    rw [entriesFor_concat]
    by_cases h : entry.slot = slot
    · rw [if_pos h, List.map_append, List.length_append, List.length_singleton,
        List.range'_1_concat]
      exact List.append_singleton_inj.trans (and_congr_right fun _ => by simp [h])
    · rw [if_neg h]
      simp [h]
  rw [List.length_append, length_tokensFor]
  constructor
  · rintro ⟨hslots, htokens, hall⟩
    rw [List.forall_mem_append, List.forall_mem_singleton] at hslots htokens
    refine ⟨⟨hslots.1, htokens.1, fun slot => ((hpositions slot).mp (hall slot)).1⟩, hslots.2,
      htokens.2, ?_⟩
    exact ((hpositions entry.slot).mp (hall entry.slot)).2 rfl
  · rintro ⟨⟨hslots, htokens, hall⟩, hslot, htoken, hposition⟩
    refine ⟨?_, ?_, fun slot => (hpositions slot).mpr ⟨hall slot, ?_⟩⟩
    · exact List.forall_mem_append.mpr ⟨hslots, List.forall_mem_singleton.mpr hslot⟩
    · exact List.forall_mem_append.mpr ⟨htokens, List.forall_mem_singleton.mpr htoken⟩
    · rintro rfl
      exact hposition

theorem askedRows_concat :
    askedRows context (entries ++ [entry]) =
      askedRows context entries ++
        if entry.wantLogits then
          [(entry, context.row entry.slot ++ tokensFor (entries ++ [entry]) entry.slot)]
        else [] := by
  have hlast : (entries ++ [entry]).take (entries.length + 1) = entries ++ [entry] :=
    List.take_of_length_le (by simp)
  rw [askedRows, List.zipIdx_append, List.filter_append, List.map_append, askedRows]
  congr 1
  · refine List.map_congr_left fun ⟨entry', i⟩ hmem => ?_
    -- What comes before an entry is not changed by what is added at the end.
    have hi : i < entries.length := by
      have hget := List.mem_zipIdx_iff_getElem?.mp (List.mem_of_mem_filter hmem)
      exact (List.getElem?_eq_some_iff.mp hget).1
    dsimp only
    rw [List.take_append_of_le_length hi]
  · rw [List.zipIdx_singleton, Nat.zero_add, List.filter_singleton]
    cases entry.wantLogits
    · rfl
    · simp [hlast]

/-- There is a row for each entry that asks. -/
theorem map_fst_askedRows (context : Context) (entries : List BatchEntry) :
    (askedRows context entries).map Prod.fst = entries.filter BatchEntry.wantLogits := by
  induction entries using List.reverseRecOn with
  | nil => rfl
  | append_singleton entries entry ih =>
    rw [askedRows_concat, List.map_append, ih, List.filter_append, List.filter_singleton]
    cases entry.wantLogits <;> rfl

theorem requested_concat :
    requested params context (entries ++ [entry]) =
      requested params context entries ++
        if entry.wantLogits then
          [logitsFor params (context.row entry.slot ++ tokensFor (entries ++ [entry]) entry.slot)]
        else [] := by
  rw [requested, askedRows_concat, List.map_append, requested]
  cases entry.wantLogits <;> rfl

/-! ### One entry after the other -/

theorem writeAll_singleton_eq_ok_iff :
    writeAll params context [entry] = .ok (context', logits) ↔
      writeEntry params context entry = .ok context' ∧
        logits = if entry.wantLogits then [logitsFor params (context'.row entry.slot)] else [] := by
  constructor
  · intro h
    obtain ⟨middle, logits', hentry, hrest, heq⟩ := writeAll_cons_eq_ok h
    obtain ⟨rfl, rfl⟩ := Prod.mk.inj (Except.ok.inj hrest)
    exact ⟨hentry, heq⟩
  · rintro ⟨hentry, rfl⟩
    rw [writeAll_cons hentry]
    rfl

/-- A list of entries is written as its two parts are, one after the other. -/
theorem writeAll_append_eq_ok_iff {first second : List BatchEntry} :
    writeAll params context (first ++ second) = .ok (context', logits) ↔
      ∃ middle logits₁ logits₂, writeAll params context first = .ok (middle, logits₁) ∧
        writeAll params middle second = .ok (context', logits₂) ∧
        logits = logits₁ ++ logits₂ := by
  induction first generalizing context logits with
  | nil =>
    constructor
    · intro h
      exact ⟨context, [], logits, rfl, h, rfl⟩
    · rintro ⟨middle, logits₁, logits₂, hfirst, hsecond, rfl⟩
      obtain ⟨rfl, rfl⟩ := Prod.mk.inj (Except.ok.inj hfirst)
      exact hsecond
  | cons entry rest ih =>
    constructor
    · intro h
      obtain ⟨next, logits', hentry, hrest, rfl⟩ := writeAll_cons_eq_ok h
      obtain ⟨middle, logits₁, logits₂, hfirst, hsecond, rfl⟩ := ih.mp hrest
      refine ⟨middle,
        if entry.wantLogits then logitsFor params (next.row entry.slot) :: logits₁ else logits₁,
        logits₂, ?_, hsecond, ?_⟩
      · rw [writeAll_cons hentry, hfirst]
        rfl
      · cases entry.wantLogits <;> rfl
    · rintro ⟨middle, logits₁, logits₂, hfirst, hsecond, rfl⟩
      obtain ⟨next, logits', hentry, hrest, rfl⟩ := writeAll_cons_eq_ok hfirst
      rw [List.cons_append, writeAll_cons hentry,
        ih.mpr ⟨middle, logits', logits₂, hrest, hsecond, rfl⟩]
      cases entry.wantLogits <;> rfl

/-- Entries are written just if they are accepted. -/
theorem exists_writeAll_eq_ok_iff :
    (∃ context' logits, writeAll params context entries = .ok (context', logits)) ↔
      Accepts params context entries := by
  induction entries using List.reverseRecOn with
  | nil => exact iff_of_true ⟨context, [], rfl⟩ (accepts_nil ..)
  | append_singleton entries entry ih =>
    rw [accepts_concat_iff, ← ih]
    constructor
    · rintro ⟨context', logits, h⟩
      obtain ⟨middle, logits₁, logits₂, hfirst, hlast, -⟩ := writeAll_append_eq_ok_iff.mp h
      obtain ⟨hentry, -⟩ := writeAll_singleton_eq_ok_iff.mp hlast
      obtain ⟨hlength, hrow, -⟩ := row_of_writeAll hfirst
      obtain ⟨hslot, htoken, hposition, -⟩ := writeEntry_eq_ok_iff.mp hentry
      rw [hlength] at hslot
      rw [hrow] at hposition
      exact ⟨⟨middle, logits₁, hfirst⟩, hslot, htoken, hposition⟩
    · rintro ⟨⟨middle, logits₁, hfirst⟩, hslot, htoken, hposition⟩
      obtain ⟨hlength, hrow, -⟩ := row_of_writeAll hfirst
      rw [← hlength] at hslot
      rw [← hrow] at hposition
      have hentry := writeEntry_eq_ok_iff.mpr ⟨hslot, htoken, hposition, rfl⟩
      exact ⟨_, _, writeAll_append_eq_ok_iff.mpr ⟨middle, logits₁, _, hfirst,
        writeAll_singleton_eq_ok_iff.mpr ⟨hentry, rfl⟩, rfl⟩⟩

/-- The logits that come of entries are those that they ask for. -/
theorem logits_of_writeAll (h : writeAll params context entries = .ok (context', logits)) :
    logits = requested params context entries := by
  induction entries using List.reverseRecOn generalizing context' logits with
  | nil =>
    obtain ⟨-, rfl⟩ := Prod.mk.inj (Except.ok.inj h)
    rfl
  | append_singleton entries entry ih =>
    obtain ⟨middle, logits₁, logits₂, hfirst, hlast, rfl⟩ := writeAll_append_eq_ok_iff.mp h
    obtain ⟨-, rfl⟩ := writeAll_singleton_eq_ok_iff.mp hlast
    rw [requested_concat, ih hfirst, (row_of_writeAll h).2.1]

/-! ### Calls -/

/-- Contexts with the same rows are the same. -/
theorem Context.ext_row (hlength : context'.rows.length = context.rows.length)
    (hrow : ∀ slot, context'.row slot = context.row slot) : context' = context := by
  obtain ⟨rows⟩ := context
  obtain ⟨rows'⟩ := context'
  refine congrArg Context.mk (List.ext_getElem hlength fun i hi' hi => ?_)
  have hrow := hrow ⟨i⟩
  rwa [Context.row, Context.row, List.getElem?_eq_getElem hi', List.getElem?_eq_getElem hi] at hrow

/-! ### Interleavings -/

section Interleaving

variable {entries' : List BatchEntry}

/-- The entries of each slot are the same, in the same order. -/
def SameBySlot (entries entries' : List BatchEntry) : Prop :=
  ∀ slot, entriesFor entries' slot = entriesFor entries slot

/-- Neighbours of different slots can change places. -/
theorem SameBySlot.swap (before after : List BatchEntry) {entry entry' : BatchEntry}
    (hne : entry.slot ≠ entry'.slot) :
    SameBySlot (before ++ entry :: entry' :: after) (before ++ entry' :: entry :: after) := by
  intro slot
  have hnot : ¬ (entry.slot = slot ∧ entry'.slot = slot) := fun h => hne (h.1.trans h.2.symm)
  simp only [entriesFor, List.filter_append, List.filter_cons, decide_eq_true_eq]
  split_ifs with h' h
  · exact absurd ⟨h, h'⟩ hnot
  all_goals rfl

theorem SameBySlot.mem_iff (h : SameBySlot entries entries') :
    entry ∈ entries' ↔ entry ∈ entries := by
  rw [← mem_entriesFor_self, h, mem_entriesFor_self]

theorem SameBySlot.accepts (h : SameBySlot entries entries')
    (haccepts : Accepts params context entries) : Accepts params context entries' where
  slots entry hentry := haccepts.slots entry (h.mem_iff.mp hentry)
  tokens entry hentry := haccepts.tokens entry (h.mem_iff.mp hentry)
  positions slot := by
    rw [h]
    exact haccepts.positions slot

/-- What is asked for a slot depends on the entries of this slot only. -/
theorem askedRows_filter (context : Context) (entries : List BatchEntry) (slot : Slot) :
    (askedRows context entries).filter (·.1.slot = slot) =
      askedRows context (entriesFor entries slot) := by
  induction entries using List.reverseRecOn with
  | nil => rfl
  | append_singleton entries entry ih =>
    rw [askedRows_concat, List.filter_append, ih, entriesFor_concat]
    by_cases h : entry.slot = slot
    · have htokens : tokensFor (entriesFor entries slot ++ [entry]) entry.slot =
          tokensFor (entries ++ [entry]) entry.slot := by
        rw [tokensFor_append, tokensFor_append, h, tokensFor_entriesFor]
      rw [if_pos h, askedRows_concat, htokens]
      cases entry.wantLogits <;> simp [h]
    · rw [if_neg h]
      cases entry.wantLogits <;> simp [h]

/-- The entries of a slot that ask for logits, each with the logits that it gets. -/
def answersFor (entries : List BatchEntry) (logits : List Logits) (slot : Slot) :
    List (BatchEntry × Logits) :=
  ((entries.filter BatchEntry.wantLogits).zip logits).filter (·.1.slot = slot)

theorem answersFor_requested (params : Params) (context : Context) (entries : List BatchEntry)
    (slot : Slot) :
    answersFor entries (requested params context entries) slot =
      (askedRows context (entriesFor entries slot)).map fun asked =>
        (asked.1, logitsFor params asked.2) := by
  have hzip : (entries.filter BatchEntry.wantLogits).zip (requested params context entries) =
      (askedRows context entries).map fun asked => (asked.1, logitsFor params asked.2) := by
    rw [← map_fst_askedRows context, requested, List.zip_map']
  rw [answersFor, hzip, List.filter_map, ← askedRows_filter]
  rfl

/-- A call that is carried out for one interleaving is carried out for every other, with the same
rows and the same logits for every entry. -/
theorem compute_of_sameBySlot {batch batch' : Batch}
    (hsame : SameBySlot batch.entries batch'.entries)
    (h : compute params context batch = (context', .ok logits)) :
    ∃ logits', compute params context batch' = (context', .ok logits') ∧
      ∀ slot, answersFor batch'.entries logits' slot = answersFor batch.entries logits slot := by
  have hwrite := compute_eq_ok_iff.mp h
  have haccepts := hsame.accepts (exists_writeAll_eq_ok_iff.mp ⟨context', logits, hwrite⟩)
  obtain ⟨written, logits', hwrite'⟩ := exists_writeAll_eq_ok_iff.mpr haccepts
  obtain ⟨hlength, hrow, -⟩ := row_of_writeAll hwrite
  obtain ⟨hlength', hrow', -⟩ := row_of_writeAll hwrite'
  have hwritten : written = context' := by
    refine Context.ext_row (hlength'.trans hlength.symm) fun slot => ?_
    rw [hrow', hrow, tokensFor_eq_map, tokensFor_eq_map, hsame]
  rw [hwritten] at hwrite'
  refine ⟨logits', compute_eq_ok_iff.mpr hwrite', fun slot => ?_⟩
  rw [logits_of_writeAll hwrite, logits_of_writeAll hwrite', answersFor_requested,
    answersFor_requested, hsame]

end Interleaving

/-! ### The whole of a call -/

/-- **A call is carried out as a whole or not at all**, and is made up of what it does to each slot.

* It is carried out just if every slot is in the context, every token is in the vocabulary and not
  the failing one, and the positions of each slot count on from the end of its row.
* Then each row gets the tokens of its slot, in order, and there is one row of logits for each entry
  that asks, in order, worked out from the row of its slot up to and including the entry.
* If it is refused, the context is as it was.
* A batch that is cut in two gives the same in two calls.
* Entries of different slots can change places: the rows, and the logits of every entry, stay the
  same. -/
theorem compute_atomic (params : Params) (context : Context) (batch : Batch) :
    ((∃ written logits, compute params context batch = (written, .ok logits)) ↔
      Accepts params context batch.entries) ∧
    (∀ written logits, compute params context batch = (written, .ok logits) →
      written.rows.length = context.rows.length ∧
      (∀ slot, written.row slot = context.row slot ++ tokensFor batch.entries slot) ∧
      logits.length = batch.entries.countP BatchEntry.wantLogits ∧
      logits = requested params context batch.entries) ∧
    (∀ written e, compute params context batch = (written, .error e) → written = context) ∧
    (∀ first second : Batch, batch.entries = first.entries ++ second.entries →
      ∀ written logits, compute params context batch = (written, .ok logits) ↔
        ∃ middle logits₁ logits₂, compute params context first = (middle, .ok logits₁) ∧
          compute params middle second = (written, .ok logits₂) ∧
          logits = logits₁ ++ logits₂) ∧
    (∀ batch' : Batch, SameBySlot batch.entries batch'.entries →
      ∀ written logits, compute params context batch = (written, .ok logits) →
        ∃ logits', compute params context batch' = (written, .ok logits') ∧
          ∀ slot, answersFor batch'.entries logits' slot =
            answersFor batch.entries logits slot) := by
  refine ⟨?_, ?_, fun _ _ => context_of_compute_error, ?_, fun _ hsame _ _ h =>
    compute_of_sameBySlot hsame h⟩
  · simp only [compute_eq_ok_iff]
    exact exists_writeAll_eq_ok_iff
  · intro written logits h
    have hwrite := compute_eq_ok_iff.mp h
    obtain ⟨hlength, hrow, hcount⟩ := row_of_writeAll hwrite
    exact ⟨hlength, hrow, hcount, logits_of_writeAll hwrite⟩
  · intro first second hentries written logits
    simp only [compute_eq_ok_iff, hentries]
    exact writeAll_append_eq_ok_iff

/-- Two slots that both ask, the second one with a token in its row already. -/
theorem compute_atomic_two_slots :
    let params : Params := { failOn := some 33 }
    let context : Context := ⟨[[], [104]]⟩
    let a₀ : BatchEntry := ⟨⟨0⟩, 97, 0, false⟩
    let a₁ : BatchEntry := ⟨⟨0⟩, 98, 1, true⟩
    let b₀ : BatchEntry := ⟨⟨1⟩, 99, 1, true⟩
    ∃ written logits logits',
      compute params context ⟨4, [a₀, b₀, a₁], []⟩ = (written, .ok logits) ∧
      written.row ⟨0⟩ = [97, 98] ∧ written.row ⟨1⟩ = [104, 99] ∧
      logits = [logitsFor params [104, 99], logitsFor params [97, 98]] ∧
      compute params context ⟨4, [b₀, a₀, a₁], []⟩ = (written, .ok logits') ∧
      answersFor [b₀, a₀, a₁] logits' ⟨0⟩ = [(a₁, logitsFor params [97, 98])] := by
  intro params context a₀ a₁ b₀
  have haccepts : Accepts params context (([] ++ [a₀]) ++ [b₀] ++ [a₁]) := by
    refine accepts_concat_iff.mpr ⟨accepts_concat_iff.mpr ⟨accepts_concat_iff.mpr
      ⟨accepts_nil .., ?_⟩, ?_⟩, ?_⟩ <;> decide
  obtain ⟨hok, hdone, -, -, hinterleaved⟩ := compute_atomic params context ⟨4, [a₀, b₀, a₁], []⟩
  obtain ⟨written, logits, h⟩ := hok.mpr haccepts
  obtain ⟨-, hrow, -, rfl⟩ := hdone written logits h
  have hsame : SameBySlot [a₀, b₀, a₁] [b₀, a₀, a₁] := .swap [] [a₁] (by decide)
  obtain ⟨logits', h', hanswers⟩ :=
    hinterleaved ⟨4, [b₀, a₀, a₁], []⟩ hsame written _ h
  exact ⟨written, _, logits', h, hrow ⟨0⟩, hrow ⟨1⟩, rfl, h', hanswers ⟨0⟩⟩

end ByteModel

end Turnwise
