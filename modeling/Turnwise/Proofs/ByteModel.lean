import Mathlib.Tactic.SplitIfs
import Turnwise.Proofs.ByteModel.Text
import Turnwise.Proofs.SlotArena
import Turnwise.Proofs.Worker.Plans

/-!
# What the byte model writes

A call checks a whole batch before it writes anything, with the positions that the rows will have
reached by each entry. This is the same as checking each entry against its row when its turn to be
written has come (`ByteModel.writeAll`, `ByteModel.checkAll_eq`), and everything else is said of
this one pass.

`ByteModel.Context.row` is the view of a context. A batch that is accepted puts the tokens it holds
for a slot at the end of the slot's row, in order, and leaves every other row alone
(`row_of_writeAll`); a batch that is refused leaves the context as it was. So what a call does to
one row depends on no other session.

Two kinds of batches occur. For both it is worked out here when they are accepted and what they
return: runs of tokens at the ends of different rows (`writeAll_shares`), and one token for each of
several rows with a request for logits (`writeAll_decode`).
-/

namespace Turnwise

/-! ### Tokens of a slot -/

/-- The tokens that a list of entries holds for a slot. -/
def tokensFor (entries : List BatchEntry) (slot : Slot) : List Token :=
  (entries.filter (·.slot = slot)).map BatchEntry.token

theorem tokensFor_append (entries entries' : List BatchEntry) (slot : Slot) :
    tokensFor (entries ++ entries') slot = tokensFor entries slot ++ tokensFor entries' slot := by
  rw [tokensFor, List.filter_append, List.map_append]
  rfl

theorem tokensFor_cons (entry : BatchEntry) (entries : List BatchEntry) (slot : Slot) :
    tokensFor (entry :: entries) slot =
      if entry.slot = slot then entry.token :: tokensFor entries slot
      else tokensFor entries slot := by
  rw [tokensFor, List.filter_cons, tokensFor]
  by_cases h : entry.slot = slot
  · rw [if_pos (decide_eq_true h), if_pos h, List.map_cons]
  · rw [if_neg (by simpa using h), if_neg h]

theorem tokensFor_eq_nil {entries : List BatchEntry} {slot : Slot}
    (h : ∀ entry ∈ entries, entry.slot ≠ slot) : tokensFor entries slot = [] := by
  rw [tokensFor, List.filter_eq_nil_iff.mpr fun entry hentry => by simpa using h entry hentry,
    List.map_nil]

/-- Where every session has its own slot, a batch holds for a slot what it holds for the one session
in it. -/
theorem tokensFor_flatMap {κ : Type} (slotOf : κ → Slot) {entriesOf : κ → List BatchEntry}
    (hslot : ∀ key, ∀ entry ∈ entriesOf key, entry.slot = slotOf key) {keys : List κ}
    (hnodup : (keys.map slotOf).Nodup) {key : κ} (hkey : key ∈ keys) :
    tokensFor (keys.flatMap entriesOf) (slotOf key) = (entriesOf key).map BatchEntry.token := by
  obtain ⟨before, after, rfl⟩ := List.append_of_mem hkey
  rw [List.map_append, List.map_cons, List.nodup_middle, List.nodup_cons, List.mem_append,
    not_or] at hnodup
  -- The sessions before and after this one have other slots, so their entries do not count.
  have hothers : ∀ keys : List κ, slotOf key ∉ keys.map slotOf →
      tokensFor (keys.flatMap entriesOf) (slotOf key) = [] := by
    intro keys hnot
    refine tokensFor_eq_nil fun entry hentry heq => hnot ?_
    obtain ⟨key', hkey', hentry⟩ := List.mem_flatMap.mp hentry
    rw [← heq, hslot key' entry hentry]
    exact List.mem_map_of_mem hkey'
  have hown : tokensFor (entriesOf key) (slotOf key) = (entriesOf key).map BatchEntry.token := by
    have hall : ∀ entry ∈ entriesOf key, decide (entry.slot = slotOf key) = true := by
      intro entry hentry
      exact decide_eq_true (hslot key entry hentry)
    rw [tokensFor, List.filter_eq_self.mpr hall]
  rw [List.flatMap_append, List.flatMap_cons, tokensFor_append, tokensFor_append,
    hothers before hnodup.1.1, hothers after hnodup.1.2, hown, List.append_nil, List.nil_append]

theorem Batch.slot_of_mem_runOf {slot : Slot} {tokens : List Token} {position : Nat}
    {entry : BatchEntry} (h : entry ∈ runOf slot tokens position) : entry.slot = slot := by
  induction tokens generalizing position with
  | nil => cases h
  | cons token rest ih =>
    rcases List.mem_cons.mp h with rfl | hrest
    · rfl
    · exact ih hrest

theorem Batch.map_token_runOf (slot : Slot) (tokens : List Token) (position : Nat) :
    (runOf slot tokens position).map BatchEntry.token = tokens := by
  induction tokens generalizing position with
  | nil => rfl
  | cons token rest ih => rw [runOf, List.map_cons, ih]

namespace ByteModel

variable {params : Params} {context context' : Context}

/-! ### Rows -/

/-- The context with more tokens at the end of a row. -/
def Context.extend (context : Context) (slot : Slot) (tokens : List Token) : Context :=
  { rows := context.rows.set slot.index (context.row slot ++ tokens) }

@[simp] theorem length_rows_extend (slot : Slot) (tokens : List Token) :
    (context.extend slot tokens).rows.length = context.rows.length :=
  List.length_set

theorem row_extend {slot : Slot} (h : slot.index < context.rows.length) (tokens : List Token)
    (slot' : Slot) :
    (context.extend slot tokens).row slot' =
      if slot' = slot then context.row slot ++ tokens else context.row slot' := by
  rw [Context.row, Context.extend, List.getElem?_set]
  by_cases heq : slot' = slot
  · rw [if_pos heq, if_pos (by rw [heq]), if_pos h]
    rfl
  · rw [if_neg heq, if_neg fun hidx => heq (Slot.eq_iff_index_eq.mpr hidx.symm), Context.row]

theorem extend_nil (slot : Slot) : context.extend slot [] = context := by
  obtain ⟨rows⟩ := context
  rw [Context.extend, List.append_nil, Context.row]
  refine congrArg Context.mk ?_
  by_cases h : slot.index < rows.length
  · rw [List.getElem?_eq_getElem h, Option.getD_some, List.set_getElem_self]
  · exact List.set_eq_of_length_le (Nat.le_of_not_lt h)

theorem extend_extend {slot : Slot} (h : slot.index < context.rows.length)
    (tokens tokens' : List Token) :
    (context.extend slot tokens).extend slot tokens' = context.extend slot (tokens ++ tokens') := by
  rw [Context.extend, row_extend h, if_pos rfl, Context.extend, Context.extend, List.set_set,
    List.append_assoc]

theorem row_removeSlot (context : Context) (slot slot' : Slot) :
    (removeSlot context slot).row slot' = if slot' = slot then [] else context.row slot' := by
  rw [Context.row, removeSlot]
  by_cases heq : slot' = slot
  · rw [if_pos heq, heq, List.getElem?_modify_eq]
    cases context.rows[slot.index]? <;> rfl
  · rw [if_neg heq, List.getElem?_modify_ne _ _ fun h => heq (Slot.eq_iff_index_eq.mpr h.symm),
      Context.row]

@[simp] theorem length_rows_removeSlot (context : Context) (slot : Slot) :
    (removeSlot context slot).rows.length = context.rows.length :=
  List.length_modify ..

/-! ### Writing -/

/-- Writes one entry at the end of its row; refused if the slot is not in the context, the token not
in the vocabulary or the failing one, or the position not the end of the row. -/
def writeEntry (params : Params) (context : Context) (entry : BatchEntry) : Except Error Context :=
  match context.rows[entry.slot.index]? with
  | none => .error (.computeFailure s!"{entry.slot} outside context")
  | some row =>
      if vocabularySize ≤ entry.token then
        .error (.computeFailure s!"token {entry.token} outside vocabulary")
      else if params.failOn = some entry.token then
        .error (.computeFailure s!"injected failure on token {entry.token}")
      else if entry.position ≠ row.length then
        .error <| .computeFailure
          s!"{entry.slot} expected position {row.length}, got {entry.position}"
      else .ok (context.push entry.slot entry.token)

/-- Writes entries in order, each of them checked when its turn has come, and collects the logits
that they ask for. -/
def writeAll (params : Params) : Context → List BatchEntry → Except Error (Context × List Logits)
  | context, [] => .ok (context, [])
  | context, entry :: rest => do
      let context ← writeEntry params context entry
      let (last, rows) ← writeAll params context rest
      if entry.wantLogits then pure (last, logitsFor params (context.row entry.slot) :: rows)
      else pure (last, rows)

theorem push_eq_extend (slot : Slot) (token : Token) :
    context.push slot token = context.extend slot [token] := by
  rw [Context.push, Context.extend, Context.row, List.modify_eq_set_getElem?]
  cases h : context.rows[slot.index]? with
  | none =>
    rw [Option.getD_none, List.set_eq_of_length_le (List.getElem?_eq_none_iff.mp h)]
    rfl
  | some row => rfl

/-- An entry is written at the end of its row or not at all. -/
theorem writeEntry_eq_ok_iff {entry : BatchEntry} :
    writeEntry params context entry = .ok context' ↔
      entry.slot.index < context.rows.length ∧
        (entry.token < vocabularySize ∧ params.failOn ≠ some entry.token) ∧
        entry.position = (context.row entry.slot).length ∧
        context' = context.extend entry.slot [entry.token] := by
  unfold writeEntry
  by_cases hslot : entry.slot.index < context.rows.length
  · have hrow : context.rows[entry.slot.index]? = some (context.row entry.slot) := by
      rw [Context.row, List.getElem?_eq_getElem hslot, Option.getD_some]
    rw [hrow, push_eq_extend]
    dsimp only
    -- The conditions come in the order of the checks.
    split_ifs with htoken hfail hposition
    · simp [Nat.not_lt_of_le htoken]
    · simp [hfail]
    · simp [hposition]
    · simp [hslot, Nat.lt_of_not_le htoken, hfail, not_not.mp hposition, eq_comm]
  · rw [List.getElem?_eq_none (Nat.le_of_not_lt hslot)]
    simp [hslot]

theorem eq_extend_of_writeEntry {entry : BatchEntry}
    (h : writeEntry params context entry = .ok context') :
    entry.slot.index < context.rows.length ∧
      context' = context.extend entry.slot [entry.token] := by
  obtain ⟨hslot, -, -, heq⟩ := writeEntry_eq_ok_iff.mp h
  exact ⟨hslot, heq⟩

theorem writeEntry_eq_ok (entry : BatchEntry) (hslot : entry.slot.index < context.rows.length)
    (htoken : entry.token < vocabularySize) (hfail : params.failOn ≠ some entry.token)
    (hposition : entry.position = (context.row entry.slot).length) :
    writeEntry params context entry = .ok (context.extend entry.slot [entry.token]) :=
  writeEntry_eq_ok_iff.mpr ⟨hslot, ⟨htoken, hfail⟩, hposition, rfl⟩

theorem writeAll_cons {entry : BatchEntry} {middle : Context}
    (h : writeEntry params context entry = .ok middle) (rest : List BatchEntry) :
    writeAll params context (entry :: rest) =
      (writeAll params middle rest).map fun written =>
        (written.1, if entry.wantLogits then
          logitsFor params (middle.row entry.slot) :: written.2 else written.2) := by
  rw [writeAll, h]
  show (writeAll params middle rest >>= _) = _
  rcases writeAll params middle rest with e | ⟨last, logits⟩
  · rfl
  · show (if entry.wantLogits = true then _ else _) = _
    cases entry.wantLogits <;> rfl

/-- What is written first does not depend on what comes after. -/
theorem writeAll_cons_eq_ok {entry : BatchEntry} {rest : List BatchEntry} {logits : List Logits}
    (h : writeAll params context (entry :: rest) = .ok (context', logits)) :
    ∃ middle logits', writeEntry params context entry = .ok middle ∧
      writeAll params middle rest = .ok (context', logits') ∧
      logits = if entry.wantLogits then logitsFor params (middle.row entry.slot) :: logits'
        else logits' := by
  rcases hentry : writeEntry params context entry with e | middle
  · rw [writeAll, hentry] at h
    cases h
  · rw [writeAll_cons hentry] at h
    rcases hrest : writeAll params middle rest with e | ⟨last, logits'⟩
    · rw [hrest] at h
      cases h
    · rw [hrest] at h
      obtain ⟨rfl, rfl⟩ := Prod.mk.inj (Except.ok.inj h)
      exact ⟨middle, logits', rfl, hrest, rfl⟩

/-- **A batch that is accepted reaches the ends of its rows**, and gives one row of logits for each
entry that asks. -/
theorem row_of_writeAll {entries : List BatchEntry} {logits : List Logits}
    (h : writeAll params context entries = .ok (context', logits)) :
    context'.rows.length = context.rows.length ∧
      (∀ slot, context'.row slot = context.row slot ++ tokensFor entries slot) ∧
      logits.length = entries.countP BatchEntry.wantLogits := by
  induction entries generalizing context logits with
  | nil =>
    obtain ⟨rfl, rfl⟩ := Prod.mk.inj (Except.ok.inj h)
    exact ⟨rfl, fun slot => (List.append_nil _).symm, rfl⟩
  | cons entry rest ih =>
    obtain ⟨middle, logits', hentry, hrest, rfl⟩ := writeAll_cons_eq_ok h
    obtain ⟨hlt, rfl⟩ := eq_extend_of_writeEntry hentry
    obtain ⟨hlength, hrow, hlogits⟩ := ih hrest
    refine ⟨hlength.trans (length_rows_extend ..), fun slot => ?_, ?_⟩
    · rw [hrow, row_extend hlt, tokensFor_cons]
      by_cases heq : slot = entry.slot
      · rw [if_pos heq, if_pos heq.symm, heq, List.append_assoc]
        rfl
      · rw [if_neg heq, if_neg (Ne.symm heq)]
    · rw [List.countP_cons]
      split_ifs
      · rw [List.length_cons, hlogits]
      · rw [hlogits, Nat.add_zero]

/-! ### Checking ahead -/

/-- The next positions that were noted for the rows of a context are the ends of the rows that have
come of them. -/
structure Tracks (next : List (Slot × Nat)) (context context' : Context) : Prop where
  length : context'.rows.length = context.rows.length
  ends : ∀ slot, (next.lookup slot).getD (context.row slot).length = (context'.row slot).length

theorem Tracks.refl (context : Context) : Tracks [] context context := ⟨rfl, fun _ => rfl⟩

theorem Tracks.extend {next : List (Slot × Nat)} (h : Tracks next context context') {slot : Slot}
    (hslot : slot.index < context'.rows.length) (token : Token) :
    Tracks ((slot, (context'.row slot).length + 1) :: next) context
      (context'.extend slot [token]) where
  length := (length_rows_extend ..).trans h.length
  ends slot' := by
    rw [List.lookup_cons, row_extend hslot]
    by_cases heq : slot' = slot
    · rw [if_pos heq, beq_iff_eq.mpr heq, List.length_append]
      rfl
    · rw [if_neg heq, beq_eq_false_iff_ne.mpr heq]
      exact h.ends slot'

/-- An entry that is checked ahead is checked against the row that it will find. -/
theorem checkEntry_eq {next : List (Slot × Nat)} (h : Tracks next context context')
    (entry : BatchEntry) :
    checkEntry params context next entry =
      (writeEntry params context' entry).map fun _ =>
        (entry.slot, (context'.row entry.slot).length + 1) :: next := by
  have hends := h.ends entry.slot
  unfold checkEntry writeEntry
  by_cases hslot : entry.slot.index < context.rows.length
  · have hslot' : entry.slot.index < context'.rows.length := h.length ▸ hslot
    rw [Context.row, Context.row, List.getElem?_eq_getElem hslot,
      List.getElem?_eq_getElem hslot', Option.getD_some, Option.getD_some] at hends
    rw [Context.row, List.getElem?_eq_getElem hslot, List.getElem?_eq_getElem hslot']
    dsimp only [Option.getD_some]
    rw [hends]
    split_ifs <;> rfl
  · have hslot' : ¬ entry.slot.index < context'.rows.length := h.length ▸ hslot
    rw [List.getElem?_eq_none (Nat.le_of_not_lt hslot),
      List.getElem?_eq_none (Nat.le_of_not_lt hslot')]
    rfl

/-- **Checking everything before writing anything** is the same as checking each entry before it is
written. -/
theorem checkAll_eq (params : Params) {next : List (Slot × Nat)}
    (h : Tracks next context context') (entries : List BatchEntry) :
    (checkAll params context next entries).map (fun _ => pushAll params context' entries) =
      writeAll params context' entries := by
  induction entries generalizing next context' with
  | nil => rfl
  | cons entry rest ih =>
    rw [checkAll, checkEntry_eq h]
    rcases hentry : writeEntry params context' entry with e | middle
    · rw [writeAll, hentry]
      rfl
    · obtain ⟨hslot, rfl⟩ := eq_extend_of_writeEntry hentry
      rw [writeAll_cons hentry, ← ih (h.extend hslot entry.token)]
      dsimp only [Except.map]
      rcases checkAll params context _ rest with e | -
      · rfl
      · dsimp only
        rw [pushAll, push_eq_extend]

/-- What a call does, seen from outside. -/
theorem compute_cases (params : Params) (context : Context) (batch : Batch) :
    (∃ context' logits, compute params context batch = (context', .ok logits) ∧
      writeAll params context batch.entries = .ok (context', logits)) ∨
    (∃ e, compute params context batch = (context, .error e) ∧
      writeAll params context batch.entries = .error e) := by
  have hwrite := checkAll_eq params (Tracks.refl context) batch.entries
  unfold compute
  rw [← hwrite]
  rcases checkAll params context [] batch.entries with e | -
  · exact Or.inr ⟨e, rfl, rfl⟩
  · exact Or.inl ⟨_, _, rfl, rfl⟩

theorem compute_eq_ok_iff {batch : Batch} {logits : List Logits} :
    compute params context batch = (context', .ok logits) ↔
      writeAll params context batch.entries = .ok (context', logits) := by
  rcases compute_cases params context batch with ⟨_, _, heq, hwrite⟩ | ⟨_, heq, hwrite⟩
  · rw [heq, hwrite]
    simp
  · rw [heq, hwrite]
    simp

theorem row_of_compute {batch : Batch} {logits : List Logits}
    (h : compute params context batch = (context', .ok logits)) (slot : Slot) :
    context'.row slot = context.row slot ++ tokensFor batch.entries slot :=
  (row_of_writeAll (compute_eq_ok_iff.mp h)).2.1 slot

theorem length_rows_of_compute {batch : Batch} {logits : List Logits}
    (h : compute params context batch = (context', .ok logits)) :
    context'.rows.length = context.rows.length :=
  (row_of_writeAll (compute_eq_ok_iff.mp h)).1

/-- A call that fails writes nothing. -/
theorem context_of_compute_error {batch : Batch} {e : Error}
    (h : compute params context batch = (context', .error e)) : context' = context := by
  rcases compute_cases params context batch with ⟨_, _, heq, -⟩ | ⟨_, heq, -⟩
  · cases heq.symm.trans h
  · exact (Prod.mk.inj (h.symm.trans heq)).1

/-- A call fails if the first token of its batch is the failing one. -/
theorem compute_of_failOn {batch : Batch} {entry : BatchEntry} {rest : List BatchEntry}
    (hentries : batch.entries = entry :: rest) (hslot : entry.slot.index < context.rows.length)
    (htoken : entry.token < vocabularySize) (hfail : params.failOn = some entry.token) :
    compute params context batch =
      (context, .error (.computeFailure s!"injected failure on token {entry.token}")) := by
  have hentry : writeEntry params context entry =
      .error (.computeFailure s!"injected failure on token {entry.token}") := by
    unfold writeEntry
    rw [List.getElem?_eq_getElem hslot]
    dsimp only
    rw [if_neg (Nat.not_le_of_lt htoken), if_pos hfail]
  have hwrite : writeAll params context batch.entries =
      .error (.computeFailure s!"injected failure on token {entry.token}") := by
    rw [hentries, writeAll, hentry]
    rfl
  rcases compute_cases params context batch with ⟨_, _, -, hok⟩ | ⟨e, heq, herror⟩
  · cases hwrite.symm.trans hok
  · rw [heq, Except.error.inj (herror.symm.trans hwrite)]

/-! ### Batches that are accepted -/

/-- A run of valid tokens at the end of its row is accepted. -/
theorem writeAll_runOf (hfail : params.failOn = none) {slot : Slot}
    (hslot : slot.index < context.rows.length) {tokens : List Token}
    (htokens : ∀ token ∈ tokens, token < vocabularySize) (rest : List BatchEntry) :
    writeAll params context
        (Batch.runOf slot tokens (context.row slot).length ++ rest) =
      writeAll params (context.extend slot tokens) rest := by
  induction tokens generalizing context with
  | nil => rw [Batch.runOf, List.nil_append, extend_nil]
  | cons token tail ih =>
    have hentry := writeEntry_eq_ok ⟨slot, token, (context.row slot).length, false⟩
      hslot (htokens token List.mem_cons_self) (hfail.trans_ne (Option.some_ne_none _).symm) rfl
    rw [Batch.runOf, List.cons_append, writeAll_cons hentry]
    have hlength : ((context.extend slot [token]).row slot).length =
        (context.row slot).length + 1 := by
      rw [row_extend hslot, if_pos rfl, List.length_append, List.length_singleton]
    have hslot' : slot.index < (context.extend slot [token]).rows.length := by
      rwa [length_rows_extend]
    have htail := ih hslot' fun token' h => htokens token' (List.mem_cons_of_mem _ h)
    -- The next token is at the end of the longer row.
    rw [hlength, extend_extend hslot] at htail
    rw [htail]
    show _ = writeAll params (context.extend slot ([token] ++ tail)) rest
    cases writeAll params (context.extend slot ([token] ++ tail)) rest <;> rfl

/-- Runs at the ends of different rows are accepted together. -/
theorem writeAll_shares (hfail : params.failOn = none) {shares : List Share}
    (hnodup : (shares.map Share.slot).Nodup)
    (hvalid : ∀ share ∈ shares, share.slot.index < context.rows.length ∧
      (∀ token ∈ share.tokens, token < vocabularySize) ∧
      share.session.position = (context.row share.slot).length) :
    ∃ context', writeAll params context (shares.flatMap Share.entries) = .ok (context', []) := by
  induction shares generalizing context with
  | nil => exact ⟨context, rfl⟩
  | cons share rest ih =>
    obtain ⟨hslot, htokens, hposition⟩ := hvalid share List.mem_cons_self
    rw [List.map_cons, List.nodup_cons] at hnodup
    rw [List.flatMap_cons, Share.entries, hposition, writeAll_runOf hfail hslot htokens]
    refine ih hnodup.2 fun share' hshare' => ?_
    obtain ⟨hslot', htokens', hposition'⟩ := hvalid share' (List.mem_cons_of_mem _ hshare')
    have hne : share'.slot ≠ share.slot := fun heq =>
      hnodup.1 (heq ▸ List.mem_map_of_mem hshare')
    exact ⟨by rwa [length_rows_extend], htokens', by rw [hposition', row_extend hslot, if_neg hne]⟩

/-- The logits of a decode batch: each session gets those after its own row. -/
theorem logits_of_writeAll_decode {served : List (Slot × Session)} {logits : List Logits}
    (hnodup : (served.map Prod.fst).Nodup)
    (h : writeAll params context (served.map decodeEntry) = .ok (context', logits)) :
    logits = served.map fun entry =>
      logitsFor params (context.row entry.1 ++ [entry.2.input]) := by
  induction served generalizing context logits with
  | nil =>
    obtain ⟨-, rfl⟩ := Prod.mk.inj (Except.ok.inj h)
    rfl
  | cons entry rest ih =>
    rw [List.map_cons, List.nodup_cons] at hnodup
    obtain ⟨middle, logits', hentry, hrest, rfl⟩ := writeAll_cons_eq_ok h
    obtain ⟨hlt, rfl⟩ := eq_extend_of_writeEntry hentry
    have hthis : (context.extend (decodeEntry entry).slot [(decodeEntry entry).token]).row
        (decodeEntry entry).slot = context.row entry.1 ++ [entry.2.input] := by
      rw [row_extend hlt, if_pos rfl]
      rfl
    have hasks : (decodeEntry entry).wantLogits = true := rfl
    rw [if_pos hasks, hthis, List.map_cons, ih hnodup.2 hrest]
    -- The rows of the others are as they were before this entry was written.
    refine congrArg _ (List.map_congr_left fun entry' hentry' => ?_)
    have hne : entry'.1 ≠ entry.1 := fun heq => hnodup.1 (heq ▸ List.mem_map_of_mem hentry')
    rw [row_extend hlt, if_neg (show entry'.1 ≠ (decodeEntry entry).slot from hne)]

/-- Single tokens at the ends of different rows are accepted together. -/
theorem writeAll_decode (hfail : params.failOn = none) {served : List (Slot × Session)}
    (hnodup : (served.map Prod.fst).Nodup)
    (hvalid : ∀ entry ∈ served, entry.1.index < context.rows.length ∧
      entry.2.input < vocabularySize ∧ entry.2.position = (context.row entry.1).length) :
    ∃ context' logits, writeAll params context (served.map decodeEntry) =
      .ok (context', logits) := by
  induction served generalizing context with
  | nil => exact ⟨context, [], rfl⟩
  | cons entry rest ih =>
    obtain ⟨hslot, htoken, hposition⟩ := hvalid entry List.mem_cons_self
    rw [List.map_cons, List.nodup_cons] at hnodup
    have hentry := writeEntry_eq_ok (decodeEntry entry) hslot htoken
      (hfail.trans_ne (Option.some_ne_none _).symm) hposition
    have hvalid' : ∀ entry' ∈ rest,
        entry'.1.index < (context.extend entry.1 [entry.2.input]).rows.length ∧
        entry'.2.input < vocabularySize ∧
        entry'.2.position = ((context.extend entry.1 [entry.2.input]).row entry'.1).length := by
      intro entry' hentry'
      obtain ⟨hslot', htoken', hposition'⟩ := hvalid entry' (List.mem_cons_of_mem _ hentry')
      have hne : entry'.1 ≠ entry.1 := fun heq =>
        hnodup.1 (heq ▸ List.mem_map_of_mem hentry')
      exact ⟨by rwa [length_rows_extend], htoken',
        by rw [hposition', row_extend hslot, if_neg hne]⟩
    obtain ⟨context', logits, hrest⟩ := ih hnodup.2 hvalid'
    rw [List.map_cons, writeAll_cons hentry]
    exact ⟨context', _, congrArg (Except.map _) hrest⟩

end ByteModel

/-! ### The batches of a tick -/

namespace Worker

variable {b : Backend} {w : Worker b}

theorem Share.slot_of_mem_entries {share : Share} {entry : BatchEntry}
    (h : entry ∈ share.entries) : entry.slot = share.slot :=
  Batch.slot_of_mem_runOf h

theorem tokensFor_prefillPlan {share : Share} (h : share ∈ w.prefillShares) :
    tokensFor w.prefillPlan.batch.entries share.slot = share.tokens := by
  refine (tokensFor_flatMap Share.slot (fun _ _ => Share.slot_of_mem_entries)
    prefillShares_nodup h).trans ?_
  exact Batch.map_token_runOf ..

theorem tokensFor_prefillPlan_of_notMem {slot : Slot}
    (h : slot ∉ w.prefillShares.map Share.slot) :
    tokensFor w.prefillPlan.batch.entries slot = [] := by
  refine tokensFor_eq_nil fun entry hentry heq => h ?_
  obtain ⟨share, hshare, hentry⟩ := List.mem_flatMap.mp hentry
  rw [← heq, Share.slot_of_mem_entries hentry]
  exact List.mem_map_of_mem hshare

theorem tokensFor_decodePlan {slot : Slot} {s : Session} (h : (slot, s) ∈ w.decodeServed) :
    tokensFor w.decodePlan.batch.entries slot = [s.input] := by
  have hmap : w.decodePlan.batch.entries =
      w.decodeServed.flatMap fun entry => [decodeEntry entry] :=
    List.map_eq_flatMap
  rw [hmap]
  exact tokensFor_flatMap Prod.fst
    (fun _ _ hentry => by rw [List.mem_singleton.mp hentry]; rfl) decodeServed_nodup h

theorem tokensFor_decodePlan_of_notMem {slot : Slot} (h : slot ∉ w.decodeServed.map Prod.fst) :
    tokensFor w.decodePlan.batch.entries slot = [] := by
  refine tokensFor_eq_nil fun entry hentry heq => h ?_
  obtain ⟨served, hserved, rfl⟩ := List.mem_map.mp hentry
  exact heq ▸ List.mem_map_of_mem hserved

end Worker

end Turnwise
