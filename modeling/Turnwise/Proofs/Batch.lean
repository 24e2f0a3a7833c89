import Turnwise.Proofs.ByteModel.Composition

/-!
# Owners of logits

A batch grows by calls, each of which adds an entry, and its owner too if the entry asks for logits.
The first calls succeed, as many as there is room for, and all later ones fail and add nothing
(`Batch.addAll_eq`). So the owners are those of the calls that asked, in the order of their entries,
and the logits that a call of the byte model returns are in this order as well: each owner gets the
logits after its own entry (`Batch.owned_addAll`).
-/

namespace Turnwise

/-- Where the same elements have images under two functions, pairing the images is taking the images
of each element together. -/
theorem zip_filterMap {α β γ : Type} (f : α → Option β) (g : α → γ) (l : List α) :
    (l.filterMap f).zip ((l.filter fun a => (f a).isSome).map g) =
      l.filterMap fun a => (f a).map (·, g a) := by
  induction l with
  | nil => rfl
  | cons a rest ih =>
    rw [List.filterMap_cons, List.filterMap_cons, List.filter_cons]
    cases f a with
    | none => exact ih
    | some x => exact congrArg ((x, g a) :: ·) ih

/-! ### Calls that add -/

/-- A call that adds an entry to a batch. -/
inductive Addition where
  | input (slot : Slot) (token : Token) (position : Nat)
  | forLogits (owner : SessionId) (slot : Slot) (token : Token) (position : Nat)
  deriving DecidableEq, Repr

namespace Addition

/-- The entry to be added. -/
def entry : Addition → BatchEntry
  | input slot token position => { slot, token, position, wantLogits := false }
  | forLogits _ slot token position => { slot, token, position, wantLogits := true }

/-- The owner of the logits, if they are asked for. -/
def owner? : Addition → Option SessionId
  | input .. => none
  | forLogits owner .. => some owner

theorem isSome_owner? (addition : Addition) :
    addition.owner?.isSome = addition.entry.wantLogits := by
  cases addition <;> rfl

end Addition

namespace Batch

variable {batch : Batch}

def add (batch : Batch) : Addition → Batch × Except Error Unit
  | .input slot token position => batch.addInput slot token position
  | .forLogits owner slot token position => batch.addForLogits owner slot token position

/-- Calls in order, those that fail included. -/
def addAll : Batch → List Addition → Batch
  | batch, [] => batch
  | batch, addition :: rest => (batch.add addition).1.addAll rest

/-- The batch with the entries and the owners of some calls. -/
def withAll (batch : Batch) (additions : List Addition) : Batch :=
  { batch with
    entries := batch.entries ++ additions.map Addition.entry
    owners := batch.owners ++ additions.filterMap Addition.owner? }

theorem withAll_nil (batch : Batch) : batch.withAll [] = batch := by
  rw [withAll, List.map_nil, List.filterMap_nil, List.append_nil, List.append_nil]

theorem withAll_withAll (batch : Batch) (additions additions' : List Addition) :
    (batch.withAll additions).withAll additions' = batch.withAll (additions ++ additions') := by
  simp only [withAll, List.map_append, List.filterMap_append, List.append_assoc]

/-- One call: if the batch is full, it fails and leaves the batch alone, and otherwise it adds its
entry and its owner. -/
theorem add_eq (batch : Batch) (addition : Addition) :
    batch.add addition =
      if batch.capacity ≤ batch.size then
        (batch, .error (.internal s!"batch capacity {batch.capacity} exceeded"))
      else (batch.withAll [addition], .ok ()) := by
  by_cases hfull : batch.capacity ≤ batch.size
  · have hpush : ∀ entry, batch.push entry =
        (batch, .error (.internal s!"batch capacity {batch.capacity} exceeded")) :=
      fun _ => if_pos hfull
    rw [if_pos hfull]
    cases addition with
    | input => exact hpush _
    | forLogits => rw [add, addForLogits, hpush]
  · have hroom : batch.entries.length < batch.capacity := Nat.not_le.mp hfull
    rw [if_neg hfull]
    cases addition with
    | input =>
      rw [add, addInput, push_of_room hroom, withAll]
      exact congrArg (·, Except.ok ()) (congrArg _ (List.append_nil _).symm)
    | forLogits =>
      rw [add, addForLogits, push_of_room hroom]
      rfl

/-- **The first calls succeed**, as many as there is room for, and the others add nothing. -/
theorem addAll_eq (batch : Batch) (additions : List Addition) :
    batch.addAll additions = batch.withAll (additions.take batch.remaining) := by
  induction additions generalizing batch with
  | nil => rw [addAll, List.take_nil, withAll_nil]
  | cons addition rest ih =>
    rw [addAll, add_eq]
    by_cases hfull : batch.capacity ≤ batch.size
    · have hremaining : batch.remaining = 0 := Nat.sub_eq_zero_of_le hfull
      rw [if_pos hfull]
      dsimp only
      rw [ih, hremaining, List.take_zero, List.take_zero]
    · have hremaining : batch.remaining = (batch.withAll [addition]).remaining + 1 := by
        show batch.capacity - batch.size = batch.capacity - (batch.entries ++ [_]).length + 1
        rw [List.length_append, List.length_singleton, ← size]
        omega
      rw [if_neg hfull]
      dsimp only
      rw [ih, withAll_withAll, hremaining, List.take_succ_cons]
      rfl

/-! ### Owners -/

/-- The owners are as many as the entries that ask, and each belongs to its entry. -/
theorem zip_owners (additions : List Addition) :
    (additions.filterMap Addition.owner?).zip
        ((additions.map Addition.entry).filter BatchEntry.wantLogits) =
      additions.filterMap fun addition => addition.owner?.map (·, addition.entry) := by
  have hasks : BatchEntry.wantLogits ∘ Addition.entry = fun addition => addition.owner?.isSome :=
    funext fun addition => (Addition.isSome_owner? addition).symm
  rw [List.filter_map, hasks]
  exact zip_filterMap ..

theorem length_owners (additions : List Addition) :
    (additions.filterMap Addition.owner?).length =
      (additions.map Addition.entry).countP BatchEntry.wantLogits := by
  rw [List.countP_map, List.length_filterMap_eq_countP]
  refine List.countP_congr fun addition _ => ?_
  rw [Addition.isSome_owner?]
  rfl

/-- What each owner gets if the logits of every entry that asks come in order: the logits after its
own entry. -/
theorem zip_requested (params : ByteModel.Params) (context : ByteModel.Context)
    (additions : List Addition) :
    (additions.filterMap Addition.owner?).zip
        (ByteModel.requested params context (additions.map Addition.entry)) =
      additions.zipIdx.filterMap fun (addition, i) => addition.owner?.map fun owner =>
        (owner, ByteModel.logitsFor params (context.row addition.entry.slot ++
          tokensFor ((additions.map Addition.entry).take (i + 1)) addition.entry.slot)) := by
  -- Owners and logits are both read off the calls with their places.
  have howners : additions.filterMap Addition.owner? =
      additions.zipIdx.filterMap (Addition.owner? ∘ Prod.fst) := by
    rw [← List.filterMap_map, List.zipIdx_map_fst]
  have hasks : (fun asked : BatchEntry × Nat => asked.1.wantLogits) ∘ Prod.map Addition.entry id =
      fun asked => ((Addition.owner? ∘ Prod.fst) asked).isSome :=
    funext fun asked => (Addition.isSome_owner? asked.1).symm
  rw [ByteModel.requested, ByteModel.askedRows, List.zipIdx_map, List.filter_map, hasks,
    List.map_map, List.map_map, howners, zip_filterMap]
  rfl

/-- **Logits go to their owners.** After any calls on an empty batch:

* It holds the entries of the calls that there was room for; the entries and the remaining places
  make up the capacity.
* A further call adds its entry and its owner if there is a place, and otherwise fails as out of
  capacity and changes nothing.
* There is one owner for each entry that asks for logits, the one it was added with, in the order of
  the entries.
* The logits that the byte model returns for the batch are assigned, each to the owner of the entry
  that they come after.
* Any other number of rows is refused. -/
theorem owned_addAll (capacity : Nat) (additions : List Addition) :
    let batch := (ofCapacity capacity).addAll additions
    let added := additions.take capacity
    batch.entries = added.map Addition.entry ∧
    batch.size ≤ capacity ∧ batch.size + batch.remaining = capacity ∧
    (∀ addition, batch.add addition =
      if batch.remaining = 0 then
        (batch, .error (.internal s!"batch capacity {capacity} exceeded"))
      else
        ({ batch with
          entries := batch.entries ++ [addition.entry]
          owners := batch.owners ++ addition.owner?.toList }, .ok ())) ∧
    batch.owners.length = batch.entries.countP BatchEntry.wantLogits ∧
    batch.owners.zip (batch.entries.filter BatchEntry.wantLogits) =
      added.filterMap (fun addition => addition.owner?.map (·, addition.entry)) ∧
    (∀ params context written logits,
      ByteModel.compute params context batch = (written, .ok logits) →
      batch.assignRows logits = .ok (added.zipIdx.filterMap fun (addition, i) =>
        addition.owner?.map fun owner => (owner, ByteModel.logitsFor params
          (context.row addition.entry.slot ++
            tokensFor (batch.entries.take (i + 1)) addition.entry.slot)))) ∧
    (∀ rows : List Logits, rows.length ≠ batch.entries.countP BatchEntry.wantLogits →
      ∃ detail, batch.assignRows rows = .error (.computeFailure detail)) := by
  intro batch added
  -- What did not fit has changed nothing, so the batch is the one with the additions that did.
  have hbatch : batch = (ofCapacity capacity).withAll added := addAll_eq ..
  have hentries : batch.entries = added.map Addition.entry := by
    rw [hbatch]
    rfl
  have howners : batch.owners = added.filterMap Addition.owner? := by
    rw [hbatch]
    rfl
  have hcapacity : batch.capacity = capacity := by
    rw [hbatch]
    rfl
  have hsize : batch.size ≤ capacity := by
    rw [size, hentries, List.length_map]
    exact List.length_take_le ..
  have hlength : batch.owners.length = batch.entries.countP BatchEntry.wantLogits := by
    rw [howners, hentries]
    exact length_owners added
  refine ⟨hentries, hsize, ?_, fun addition => ?_, hlength, ?_, ?_, fun rows hrows => ?_⟩
  -- Entries and remaining places make up the capacity.
  · rw [remaining, hcapacity]
    exact Nat.add_sub_cancel' hsize
  -- One more addition finds a place unless none remains, whatever its kind.
  · have hfull : batch.remaining = 0 ↔ batch.capacity ≤ batch.size := Nat.sub_eq_zero_iff_le
    have hwith : batch.withAll [addition] = { batch with
        entries := batch.entries ++ [addition.entry]
        owners := batch.owners ++ addition.owner?.toList } := by
      cases addition <;> rfl
    simp only [add_eq, hfull, hwith, hcapacity]
  -- Owners and entries with logits come from the same additions.
  · rw [howners, hentries]
    exact zip_owners added
  -- The model gives one row for each of these entries, so the rows are assigned one by one.
  · intro params context written logits hcompute
    have hwrite := ByteModel.compute_eq_ok_iff.mp hcompute
    have hrows : logits.length = batch.owners.length :=
      (ByteModel.row_of_writeAll hwrite).2.2.trans hlength.symm
    rw [assignRows, if_pos hrows, ByteModel.logits_of_writeAll hwrite, howners, hentries]
    exact congrArg Except.ok (zip_requested params context added)
  -- Any other number is not the number of owners.
  · rw [← hlength] at hrows
    exact ⟨_, if_neg hrows⟩

/-- Two owners, the second one with a token before the one it asks for; a fourth call finds the
batch full. -/
theorem owned_addAll_full :
    let batch := (ofCapacity 3).addAll
      [.forLogits ⟨2⟩ ⟨1⟩ 104 0, .input ⟨0⟩ 97 0, .forLogits ⟨1⟩ ⟨0⟩ 98 1, .input ⟨1⟩ 105 1]
    ∃ written logits, ByteModel.compute {} ⟨[[], []]⟩ batch = (written, .ok logits) ∧
      batch.remaining = 0 ∧
      batch.assignRows logits =
        .ok [(⟨2⟩, ByteModel.logitsFor {} [104]), (⟨1⟩, ByteModel.logitsFor {} [97, 98])] := by
  intro batch
  have haccepts : ByteModel.Accepts {} ⟨[[], []]⟩ batch.entries := by
    show ByteModel.Accepts {} ⟨[[], []]⟩
      ([] ++ [⟨⟨1⟩, 104, 0, true⟩] ++ [⟨⟨0⟩, 97, 0, false⟩] ++ [⟨⟨0⟩, 98, 1, true⟩])
    simp only [ByteModel.accepts_concat_iff]
    exact ⟨⟨⟨ByteModel.accepts_nil .., by decide⟩, by decide⟩, by decide⟩
  obtain ⟨written, logits, hwrite⟩ := ByteModel.exists_writeAll_eq_ok_iff.mpr haccepts
  have hcompute := ByteModel.compute_eq_ok_iff.mpr hwrite
  obtain ⟨-, -, -, -, -, -, hassigned, -⟩ := owned_addAll 3
    [.forLogits ⟨2⟩ ⟨1⟩ 104 0, .input ⟨0⟩ 97 0, .forLogits ⟨1⟩ ⟨0⟩ 98 1, .input ⟨1⟩ 105 1]
  exact ⟨written, logits, hcompute, rfl, hassigned {} ⟨[[], []]⟩ written logits hcompute⟩

end Batch

end Turnwise
