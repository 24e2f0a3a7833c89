import Mathlib.Data.List.Rotate
import Turnwise.Proofs.Rotation

/-!
# Rounds over the same slots

A list of slots that is sorted by `Rotation.Before` is the order of service itself
(`Rotation.order_eq_of_pairwise`), so an order is known as soon as it is known how a list is sorted.
Serving the front of the order and moving the cursor behind it leaves each of the two parts sorted
and puts everybody who still waits before everybody who was served: the order of the next round is
the old one, rotated (`Rotation.order_resumeAfter`).

So while the same slots wait, nothing is counted from the beginning again: after any number of
rounds the order is the first one, rotated by the number of slots served to their end
(`Rotation.order_foldl_serve`).
-/

namespace Turnwise.Rotation

variable {rotation : Rotation} {slots later served waiting : List Slot} {first last x y : Slot}

/-! ### The order is determined -/

theorem Before.asymm (h : rotation.Before x y) : ¬ rotation.Before y x := by
  unfold Before at *
  omega

/-- Slots that stand in the order of service stand as they are served. -/
theorem order_eq_of_pairwise {list : List Slot} (hperm : list.Perm slots)
    (hsorted : list.Pairwise rotation.Before) : rotation.order slots = list := by
  have hdistinct : list.Nodup := hsorted.imp fun {x y} hbefore heq => by
    rw [heq] at hbefore
    exact rotation.not_before_self y hbefore
  have hnodup : slots.Nodup := hperm.nodup_iff.mp hdistinct
  exact List.Perm.eq_of_pairwise (fun _ _ _ _ hxy hyx => absurd hyx hxy.asymm)
    (rotation.order_pairwise hnodup) hsorted ((rotation.order_perm slots).trans hperm.symm)

/-- It does not matter how the waiting slots are listed. -/
theorem order_congr (rotation : Rotation) (hnodup : slots.Nodup) (hperm : later.Perm slots) :
    rotation.order later = rotation.order slots :=
  order_eq_of_pairwise ((rotation.order_perm slots).trans hperm.symm)
    (rotation.order_pairwise hnodup)

/-! ### One round -/

/-- Those before a place in the order are served before the one who has it, those after it later. -/
theorem before_of_order (hnodup : slots.Nodup)
    (horder : rotation.order slots = served ++ last :: waiting) :
    (∀ slot ∈ served, rotation.Before slot last) ∧ ∀ slot ∈ waiting, rotation.Before last slot := by
  have hsorted := rotation.order_pairwise hnodup
  rw [horder, List.pairwise_append, List.pairwise_cons] at hsorted
  obtain ⟨-, ⟨hwaiting, -⟩, hserved⟩ := hsorted
  exact ⟨fun slot hslot => hserved slot hslot last List.mem_cons_self, hwaiting⟩

/-- If the next round begins after the last one served, those who were served come last. -/
theorem order_resumeAfter (hnodup : slots.Nodup) (hperm : later.Perm slots)
    (horder : rotation.order slots = served ++ last :: waiting) :
    (rotation.resumeAfter last).order later = waiting ++ (served ++ [last]) := by
  obtain ⟨hserved, hwaiting⟩ := before_of_order hnodup horder
  have hround : ∀ x ∈ served ++ [last], x = last ∨ rotation.Before x last := by
    intro x hx
    rcases List.mem_append.mp hx with hx | hx
    · exact .inr (hserved x hx)
    · exact .inl (List.mem_singleton.mp hx)
  rw [List.append_cons] at horder
  have hall : (served ++ [last] ++ waiting).Perm slots := horder ▸ rotation.order_perm slots
  have hsorted := rotation.order_pairwise hnodup
  rw [horder, List.pairwise_append] at hsorted
  obtain ⟨hsortedRound, hsortedWaiting, hbetween⟩ := hsorted
  rw [order_congr (rotation.resumeAfter last) hnodup hperm]
  refine order_eq_of_pairwise (List.perm_append_comm.trans hall) ?_
  rw [List.pairwise_append]
  -- Each part stays sorted, and now the waiting ones are before the others. All of this follows
  -- from the sides of the last one on which two slots stood.
  refine ⟨hsortedWaiting.imp_of_mem fun {x y} hx hy hxy => ?_,
    hsortedRound.imp_of_mem fun {x y} hx hy hxy => ?_, fun x hx y hy => ?_⟩
  · have hx := hwaiting x hx
    have hy := hwaiting y hy
    unfold Before resumeAfter at *
    grind
  · have hx := hround x hx
    have hy := hround y hy
    unfold Before resumeAfter at *
    grind
  · have hx := hwaiting x hx
    have hy := hround y hy
    unfold Before resumeAfter at *
    grind

/-- Moving the cursor on to the one who is served first changes nothing. -/
theorem order_resumeAt_first (hnodup : slots.Nodup) (hperm : later.Perm slots)
    (horder : rotation.order slots = first :: waiting) :
    (rotation.resumeAt first).order later = first :: waiting := by
  have hsorted := rotation.order_pairwise hnodup
  rw [horder] at hsorted
  have hfirst : ∀ x ∈ first :: waiting, x = first ∨ rotation.Before first x := by
    intro x hx
    rcases List.mem_cons.mp hx with hx | hx
    · exact .inl hx
    · exact .inr ((List.pairwise_cons.mp hsorted).1 x hx)
  rw [order_congr (rotation.resumeAt first) hnodup hperm]
  refine order_eq_of_pairwise (horder ▸ rotation.order_perm slots)
    (hsorted.imp_of_mem fun {x y} hx hy hxy => ?_)
  have hx := hfirst x hx
  have hy := hfirst y hy
  unfold Before resumeAt at *
  grind

/-- If the next round begins with the last one served, the others who were served come last. -/
theorem order_resumeAt (hnodup : slots.Nodup) (hperm : later.Perm slots)
    (horder : rotation.order slots = served ++ last :: waiting) :
    (rotation.resumeAt last).order later = last :: (waiting ++ served) := by
  rcases List.eq_nil_or_concat' served with rfl | ⟨front, previous, rfl⟩
  · rw [List.append_nil]
    exact order_resumeAt_first hnodup hperm horder
  -- Beginning with the last one is the same as beginning after the one before it, and a cursor does
  -- not remember where it was.
  · rw [List.append_assoc, List.singleton_append] at horder
    have hafter := order_resumeAfter hnodup (List.Perm.refl slots) horder
    have hat := order_resumeAt_first hnodup hperm hafter
    exact hat

/-! ### Many rounds -/

/-- A round serves some slots from the front of the order. -/
structure Round where
  /-- How many are served before the last one. -/
  before : Nat
  /-- Whether the next round begins with the last one again. -/
  again : Bool
  deriving DecidableEq, Repr

/-- How far a round gets. -/
def Round.advance (round : Round) : Nat :=
  if round.again then round.before else round.before + 1

/-- The cursor after a round. -/
def serve (slots : List Slot) (rotation : Rotation) (round : Round) : Rotation :=
  match (rotation.order slots)[round.before]? with
  | none => rotation
  | some last => if round.again then rotation.resumeAt last else rotation.resumeAfter last

/-- One round rotates the order. -/
theorem order_serve (rotation : Rotation) (hnodup : slots.Nodup) {round : Round}
    (hround : round.before < slots.length) :
    (serve slots rotation round).order slots = (rotation.order slots).rotate round.advance := by
  rw [← (rotation.order_perm slots).length_eq] at hround
  have hlast := List.getElem?_eq_getElem hround
  have horder := (List.take_append_drop round.before (rotation.order slots)).symm
  rw [List.drop_eq_getElem_cons hround] at horder
  unfold serve Round.advance
  rw [hlast]
  dsimp only
  split_ifs
  · rw [order_resumeAt hnodup (List.Perm.refl _) horder,
      List.rotate_eq_drop_append_take (Nat.le_of_lt hround), List.drop_eq_getElem_cons hround,
      List.cons_append]
  · rw [order_resumeAfter hnodup (List.Perm.refl _) horder,
      List.rotate_eq_drop_append_take hround, List.take_concat_get' _ _ hround]

/-- **Any number of rounds** rotate the order by as far as they get together. -/
theorem order_foldl_serve (rotation : Rotation) (hnodup : slots.Nodup) {rounds : List Round}
    (hrounds : ∀ round ∈ rounds, round.before < slots.length) :
    (rounds.foldl (serve slots) rotation).order slots =
      (rotation.order slots).rotate (rounds.map Round.advance).sum := by
  induction rounds generalizing rotation with
  | nil => exact (List.rotate_zero _).symm
  | cons round rest ih =>
    obtain ⟨hround, hrest⟩ := List.forall_mem_cons.mp hrounds
    rw [List.foldl_cons, ih _ hrest, order_serve rotation hnodup hround, List.rotate_rotate,
      List.map_cons, List.sum_cons]

/-- **The order of service goes round.** Whatever the cursor is (and each one is reached, by
beginning a round with the slot of that index): the order has just the slots that wait, those at or
after the cursor first and then those before it, both in increasing order. When the same slots wait
again, in whatever order they are listed, those who were not served come first, and then those who
were; if the next round begins with the last one served, it is the first of all. So over any number
of rounds the order is rotated by as many slots as were served to their end. -/
theorem order_rotates (rotation : Rotation) (hnodup : slots.Nodup) :
    (rotation.order slots).Perm slots ∧
    (∃ ahead behind, rotation.order slots = ahead ++ behind ∧
      ahead.Pairwise (·.index < ·.index) ∧ (∀ slot ∈ ahead, rotation.next ≤ slot.index) ∧
      behind.Pairwise (·.index < ·.index) ∧ ∀ slot ∈ behind, slot.index < rotation.next) ∧
    (∀ served last waiting later, rotation.order slots = served ++ last :: waiting →
      later.Perm slots →
        (rotation.resumeAfter last).order later = waiting ++ (served ++ [last]) ∧
          (rotation.resumeAt last).order later = last :: (waiting ++ served)) ∧
    ∀ rounds : List Round, (∀ round ∈ rounds, round.before < slots.length) →
      (rounds.foldl (serve slots) rotation).order slots =
        (rotation.order slots).rotate (rounds.map Round.advance).sum := by
  refine ⟨rotation.order_perm slots, rotation.exists_order_eq hnodup, ?_, fun rounds hrounds => ?_⟩
  · intro served last waiting later horder hperm
    exact ⟨order_resumeAfter hnodup hperm horder, order_resumeAt hnodup hperm horder⟩
  · exact rotation.order_foldl_serve hnodup hrounds

/-- The first round goes beyond the last slot, and the second one ends with a slot that is not
done. -/
theorem order_rotates_wrapped :
    let slots : List Slot := [⟨7⟩, ⟨0⟩, ⟨5⟩, ⟨2⟩]
    let rotation : Rotation := ⟨3⟩
    slots.Nodup ∧ rotation.order slots = [⟨5⟩, ⟨7⟩, ⟨0⟩, ⟨2⟩] ∧
      (rotation.resumeAfter ⟨0⟩).order slots = [⟨2⟩, ⟨5⟩, ⟨7⟩, ⟨0⟩] ∧
      (rotation.resumeAt ⟨0⟩).order slots = [⟨0⟩, ⟨2⟩, ⟨5⟩, ⟨7⟩] ∧
      ([⟨2, false⟩, ⟨2, true⟩].foldl (serve slots) rotation).order slots =
        [⟨7⟩, ⟨0⟩, ⟨2⟩, ⟨5⟩] := by
  intro slots rotation
  have hnodup : slots.Nodup := by decide
  have horder : rotation.order slots = [⟨5⟩, ⟨7⟩] ++ ⟨0⟩ :: [⟨2⟩] :=
    order_eq_of_pairwise (by decide) (by decide)
  obtain ⟨-, -, hround, hrounds⟩ := order_rotates rotation hnodup
  obtain ⟨hafter, hat⟩ := hround _ _ _ slots horder (List.Perm.refl _)
  refine ⟨hnodup, horder, hafter, hat, (hrounds _ (by decide)).trans ?_⟩
  rw [horder]
  rfl

end Turnwise.Rotation
