import Mathlib.Data.List.Basic
import Mathlib.Tactic.SplitIfs
import Turnwise.ByteModel
import Turnwise.Proofs.Router.Operation
import Turnwise.Proofs.Worker.Frame

/-!
# Pins and ids

A router mints ids from a counter. The counter goes up when a create succeeds and when one times
out, and in the second case the id is set aside; so the ids that callers were given are those below
the counter that were not set aside (`Router.Issues`). Every id that is pinned is one of them.

There are many ways in which an operation can go, but only four in which it acts on ids and pins
(`Router.SessionEffect`). Only the end of a session touches its pin, and commands for it go where
its pin says (`Step.sent_for`). An id below the counter is never minted again, so a pin that is gone
stays gone.
-/

namespace Turnwise

/-- Whether the failure is that a worker could not be reached. -/
def Error.isUnreachable : Error → Bool
  | workerUnavailable _ => true
  | _ => false

namespace Router

variable {r r' r'' : Router} {id : SessionId} {operation : Operation} {sent : Sent}
  {answer : Except Error Reply}

/-! ### The pieces of an operation -/

/-- Picking a worker moves the cursor, from one worker to another, and changes nothing else. -/
theorem exists_cursor_of_selectWorker {choice : Except Error Nat}
    (h : r.selectWorker = (choice, r')) :
    ∃ cursor, (r.cursor < r.workers.length → cursor < r.workers.length) ∧
      r' = { r with cursor } := by
  unfold selectWorker at h
  dsimp only at h
  split at h <;> split at h <;> obtain ⟨-, rfl⟩ := Prod.mk.inj h
  · exact ⟨_, fun hcursor => Nat.mod_lt _ (Nat.zero_lt_of_lt hcursor), rfl⟩
  all_goals exact ⟨r.cursor, id, rfl⟩

/-- Without a healthy worker none is picked. -/
theorem selectWorker_error {e : Error} (h : r.selectWorker = (.error e, r')) :
    ∃ detail, e = .workerUnavailable detail := by
  unfold selectWorker at h
  dsimp only at h
  split at h <;> split at h <;> cases h <;> exact ⟨_, rfl⟩

/-- Workers after one of them has failed. -/
def noteFailure (workers : List WorkerInfo) (index : Nat) (e : Error) : List WorkerInfo :=
  if e.isUnreachable then workers.modify index fun info => { info with healthy := false }
  else workers

theorem length_noteFailure (workers : List WorkerInfo) (index : Nat) (e : Error) :
    (noteFailure workers index e).length = workers.length := by
  unfold noteFailure
  split_ifs
  · exact List.length_modify ..
  · rfl

/-- A failure is noted in the workers and in the count of failures, and nowhere else. -/
theorem exists_markFailed_eq (r : Router) (index : Nat) (e : Error) :
    ∃ routingFailures, r.markFailed index e =
      { r with
        workers := noteFailure r.workers index e
        tally := { r.tally with routingFailures } } := by
  unfold markFailed
  cases e
  all_goals exact ⟨_, rfl⟩

/-! ### What the pieces leave alone -/

/-- Pins, the counter of ids and the ids set aside are as they were, and so is the number of
workers. -/
structure SameSessions (r r' : Router) : Prop where
  pins : r'.pins = r.pins
  nextSession : r'.nextSession = r.nextSession
  abandoned : r'.abandoned = r.abandoned
  workers : r'.workers.length = r.workers.length

namespace SameSessions

theorem refl (r : Router) : SameSessions r r := ⟨rfl, rfl, rfl, rfl⟩

theorem trans (h : SameSessions r r') (h' : SameSessions r' r'') : SameSessions r r'' where
  pins := h'.pins.trans h.pins
  nextSession := h'.nextSession.trans h.nextSession
  abandoned := h'.abandoned.trans h.abandoned
  workers := h'.workers.trans h.workers

theorem pinned? (h : SameSessions r r') (id : SessionId) : r'.pinned? id = r.pinned? id := by
  rw [Router.pinned?, h.pins, Router.pinned?]

theorem wasIssued (h : SameSessions r r') (id : SessionId) :
    r'.wasIssued id = r.wasIssued id := by
  rw [Router.wasIssued, h.nextSession, h.abandoned, Router.wasIssued]

end SameSessions

theorem sameSessions_selectWorker {choice : Except Error Nat}
    (h : r.selectWorker = (choice, r')) : SameSessions r r' := by
  obtain ⟨cursor, -, rfl⟩ := exists_cursor_of_selectWorker h
  exact ⟨rfl, rfl, rfl, rfl⟩

theorem sameSessions_markFailed (r : Router) (index : Nat) (e : Error) :
    SameSessions r (r.markFailed index e) := by
  obtain ⟨failures, heq⟩ := r.exists_markFailed_eq index e
  rw [heq]
  exact ⟨rfl, rfl, rfl, length_noteFailure ..⟩

theorem sameSessions_countUnknown (r : Router) : SameSessions r r.countUnknown :=
  ⟨rfl, rfl, rfl, rfl⟩

/-! ### Workers that are picked -/

theorem lt_of_mem_healthyIndices {index : Nat} (h : index ∈ r.healthyIndices) :
    index < r.workers.length := by
  obtain ⟨⟨info, i⟩, hmem, rfl⟩ := List.mem_map.mp h
  have hentry := List.mem_zipIdx_iff_getElem?.mp (List.mem_filter.mp hmem).1
  exact (List.getElem?_eq_some_iff.mp hentry).1

theorem mem_of_nextInTurn? {index : Nat} (h : r.nextInTurn? = some index) :
    index ∈ r.healthyIndices := by
  unfold nextInTurn? at h
  split at h
  · rename_i index' hfind
    obtain rfl := Option.some.inj h
    exact List.mem_of_find?_eq_some hfind
  · exact List.mem_of_mem_head? h

/-- Keeping the better of two never leaves the list. -/
theorem foldl_best_mem {α : Type} (better : α → α → Prop) [DecidableRel better] (first : α)
    (rest : List α) :
    rest.foldl (fun best entry => if better entry best then entry else best) first ∈
      first :: rest := by
  induction rest generalizing first with
  | nil => exact List.mem_singleton_self first
  | cons entry rest ih =>
    rw [List.foldl_cons]
    split_ifs
    · exact List.mem_cons_of_mem first (ih entry)
    · rcases List.mem_cons.mp (ih first) with heq | hmem
      · rw [heq]
        exact List.mem_cons_self
      · exact List.mem_cons_of_mem first (List.mem_cons_of_mem entry hmem)

theorem mem_of_leastLoaded? {index : Nat} (h : r.leastLoaded? = some index) :
    index ∈ r.healthyIndices := by
  unfold leastLoaded? at h
  dsimp only at h
  split at h
  · cases h
  · rename_i first rest hhealthy
    obtain rfl := Option.some.inj h
    rw [healthyIndices, hhealthy]
    refine List.mem_map_of_mem (f := Prod.snd) ?_
    exact foldl_best_mem (fun entry best => entry.1.loadScore.isBelow best.1.loadScore) first rest

/-- A worker that is picked is one of the healthy ones. -/
theorem mem_of_selectWorker {index : Nat} (h : r.selectWorker = (.ok index, r')) :
    index ∈ r.healthyIndices := by
  unfold selectWorker at h
  dsimp only at h
  split at h
  · split at h
    · rename_i index' hturn
      obtain ⟨heq, -⟩ := Prod.mk.inj h
      exact Except.ok.inj heq ▸ mem_of_nextInTurn? hturn
    · exact nomatch (Prod.mk.inj h).1
  · split at h
    · rename_i index' hleast
      obtain ⟨heq, -⟩ := Prod.mk.inj h
      exact Except.ok.inj heq ▸ mem_of_leastLoaded? hleast
    · exact nomatch (Prod.mk.inj h).1

/-! ### Pins -/

theorem pinned?_pin (r : Router) (index : Nat) (id : SessionId) :
    (r.pin index).pinned? id = if id = ⟨r.nextSession⟩ then some index else r.pinned? id := by
  rw [pinned?, pin, List.lookup_cons, pinned?]
  by_cases h : id = ⟨r.nextSession⟩
  · rw [if_pos h, beq_iff_eq.mpr h]
  · rw [if_neg h, beq_eq_false_iff_ne.mpr h]

theorem pinned?_unpin (r : Router) (id id' : SessionId) (index : Nat) :
    (r.unpin id' index).pinned? id = if id = id' then none else r.pinned? id :=
  lookup_filter_ne r.pins id' id

/-- Sessions are pinned to workers that there are. -/
def PinsInRange (r : Router) : Prop :=
  ∀ id index, r.pinned? id = some index → index < r.workers.length

/-! ### What an operation does to ids and pins -/

/-- What an operation does to ids and pins, apart from counters and the view of the workers. -/
inductive SessionEffect (r : Router) : Operation → Except Error Reply → Router → Prop
  | none {operation : Operation} {answer : Except Error Reply} {r' : Router}
      (hsame : SameSessions r r') (hanswer : ∀ id, answer ≠ .ok (.created id))
      (hend : ∀ id, operation = .endSession id → answer = .ok .ended → r.pinned? id = .none) :
      SessionEffect r operation answer r'
  | mint {operation : Operation} {r₀ : Router} {index : Nat} (hsame : SameSessions r r₀)
      (hindex : index < r.workers.length) :
      SessionEffect r operation (.ok (.created ⟨r.nextSession⟩)) (r₀.pin index)
  | setAside {operation : Operation} {e : Error} {r₀ : Router} (hsame : SameSessions r r₀) :
      SessionEffect r operation (.error e) r₀.abandon
  | unpin {id : SessionId} {index : Nat} :
      SessionEffect r (.endSession id) (.ok .ended) (r.unpin id index)

theorem Step.effect (h : Step r operation sent answer r') :
    SessionEffect r operation answer r' := by
  cases h with
  | unplaced hselect => exact .none (sameSessions_selectWorker hselect) nofun nofun
  | @created _ index r₀ hselect =>
    have hsame := sameSessions_selectWorker hselect
    rw [hsame.nextSession]
    exact .mint hsame (lt_of_mem_healthyIndices (mem_of_selectWorker hselect))
  | @retired _ index r₀ detail hselect =>
    have hfailed := sameSessions_markFailed r₀ index (.timeout detail)
    exact .setAside ((sameSessions_selectWorker hselect).trans hfailed)
  | @rejected _ index r₀ e hselect =>
    have hfailed := sameSessions_markFailed r₀ index e
    exact .none ((sameSessions_selectWorker hselect).trans hfailed) nofun nofun
  | unknown => exact .none (sameSessions_countUnknown r) nofun nofun
  | @served operation id _ _ _ hop hend _ hreply =>
    refine .none (.refl r) (fun id heq => hreply id (Except.ok.inj heq)) ?_
    rintro id' rfl -
    cases hop
    exact absurd rfl hend
  | failed => exact .none (sameSessions_markFailed r _ _) nofun nofun
  | ended => exact .unpin
  | endedAgain hpin => exact .none (.refl r) nofun fun id heq _ => by cases heq; exact hpin
  | surveyed => exact .none (.refl r) nofun nofun
  | unsurveyed => exact .none (sameSessions_markFailed r _ _) nofun nofun

namespace SessionEffect

/-- Whether a session that was minted before is pinned, and where, changes by its own end only. -/
theorem pinned?_eq (h : SessionEffect r operation answer r') (hold : id.number < r.nextSession)
    (hend : (operation, answer) ≠ (.endSession id, .ok .ended)) :
    r'.pinned? id = r.pinned? id := by
  cases h with
  | none hsame => exact hsame.pinned? id
  | @mint _ r₀ index hsame =>
    have hnew : id ≠ ⟨r₀.nextSession⟩ := by
      rintro rfl
      rw [hsame.nextSession] at hold
      exact Nat.lt_irrefl _ hold
    rw [pinned?_pin, if_neg hnew, hsame.pinned?]
  | setAside hsame => exact hsame.pinned? id
  | @unpin id' =>
    have hother : id ≠ id' := by
      rintro rfl
      exact hend rfl
    rw [pinned?_unpin, if_neg hother]

/-- A session that was ended is not pinned. -/
theorem pinned?_end (h : SessionEffect r (.endSession id) (.ok .ended) r') :
    r'.pinned? id = Option.none := by
  cases h with
  | none hsame _ hend =>
    rw [hsame.pinned?]
    exact hend id rfl rfl
  | unpin => rw [pinned?_unpin, if_pos rfl]

theorem nextSession_le (h : SessionEffect r operation answer r') :
    r.nextSession ≤ r'.nextSession := by
  cases h with
  | none hsame => exact Nat.le_of_eq hsame.nextSession.symm
  | mint hsame | setAside hsame =>
    rw [← hsame.nextSession]
    exact Nat.le_succ _
  | unpin => exact Nat.le_refl _

theorem abandoned_subset (h : SessionEffect r operation answer r') :
    r.abandoned ⊆ r'.abandoned := by
  cases h with
  | none hsame | mint hsame => exact fun _ hmem => hsame.abandoned ▸ hmem
  | setAside hsame => exact fun _ hmem => List.mem_cons_of_mem _ (hsame.abandoned ▸ hmem)
  | unpin => exact List.Subset.refl _

theorem length_workers (h : SessionEffect r operation answer r') :
    r'.workers.length = r.workers.length := by
  cases h with
  | none hsame | setAside hsame => exact hsame.workers
  | mint hsame => exact (List.length_modify ..).trans hsame.workers
  | unpin => exact List.length_modify ..

theorem pinsInRange (h : SessionEffect r operation answer r') (hr : r.PinsInRange) :
    r'.PinsInRange := by
  intro id worker hpin
  rw [h.length_workers]
  cases h with
  | none hsame | setAside hsame => exact hr id worker ((hsame.pinned? id).symm.trans hpin)
  | mint hsame hindex =>
    rw [pinned?_pin] at hpin
    split_ifs at hpin with hnew
    · exact Option.some.inj hpin ▸ hindex
    · exact hr id worker ((hsame.pinned? id).symm.trans hpin)
  | unpin =>
    rw [pinned?_unpin] at hpin
    split_ifs at hpin
    exact hr id worker hpin

end SessionEffect

/-- Commands for a session that was minted before go where it is pinned. -/
theorem Step.sent_for (h : Step r operation sent answer r') (hold : id.number < r.nextSession)
    {index : Nat} {command : Command} (hmem : (index, command) ∈ sent)
    (hfor : command.session? = some id) : r.pinned? id = some index := by
  -- A create sends commands for the id that it mints, and this one is not new.
  have hnew : ∀ {choice r'}, r.selectWorker = (choice, r') → id ≠ ⟨r'.nextSession⟩ := by
    rintro choice r' hselect rfl
    rw [(sameSessions_selectWorker hselect).nextSession] at hold
    exact Nat.lt_irrefl _ hold
  have hcommand : ∀ {id' command'}, operation.command? r = some (id', command') →
      command'.session? = some id' := by
    intro id' command' hop
    cases operation <;> cases hop <;> rfl
  cases h with
  | unplaced | unknown | endedAgain => exact absurd hmem List.not_mem_nil
  | created hselect | rejected hselect =>
    obtain ⟨rfl, rfl⟩ := Prod.mk.inj (List.mem_singleton.mp hmem)
    exact absurd (Option.some.inj hfor).symm (hnew hselect)
  | retired hselect =>
    rcases List.mem_cons.mp hmem with heq | hmem
    · obtain ⟨rfl, rfl⟩ := Prod.mk.inj heq
      exact absurd (Option.some.inj hfor).symm (hnew hselect)
    · obtain ⟨rfl, rfl⟩ := Prod.mk.inj (List.mem_singleton.mp hmem)
      exact absurd (Option.some.inj hfor).symm (hnew hselect)
  | served hop _ hpin | failed hop hpin =>
    obtain ⟨rfl, rfl⟩ := Prod.mk.inj (List.mem_singleton.mp hmem)
    obtain rfl := Option.some.inj ((hcommand hop).symm.trans hfor)
    exact hpin
  | ended hpin =>
    obtain ⟨rfl, rfl⟩ := Prod.mk.inj (List.mem_singleton.mp hmem)
    obtain rfl := Option.some.inj hfor
    exact hpin
  | surveyed | unsurveyed =>
    obtain ⟨index', -, heq⟩ := List.mem_map.mp hmem
    obtain ⟨rfl, rfl⟩ := Prod.mk.inj heq
    cases hfor

/-! ### The course of a session -/

namespace Trace

variable {turns : List (Operation × Except Error Reply)} {worker : Nat}

/-- A session that was minted before and is not pinned stays so, and no command is sent for it. -/
theorem unpinned (h : Trace r turns sent r') (hold : id.number < r.nextSession)
    (hpin : r.pinned? id = none) :
    r'.pinned? id = none ∧ ∀ entry ∈ sent, entry.2.session? ≠ some id := by
  induction h with
  | nil => exact ⟨hpin, nofun⟩
  | @cons r r₁ r' operation sent sent' answer turns hstep hrest ih =>
    have hpin₁ : r₁.pinned? id = none := by
      by_cases hend : (operation, answer) = (.endSession id, .ok .ended)
      · obtain ⟨rfl, rfl⟩ := Prod.mk.inj hend
        exact hstep.effect.pinned?_end
      · rw [hstep.effect.pinned?_eq hold hend]
        exact hpin
    obtain ⟨hpin', hsent'⟩ := ih (Nat.lt_of_lt_of_le hold hstep.effect.nextSession_le) hpin₁
    refine ⟨hpin', fun entry hentry hfor => ?_⟩
    rcases List.mem_append.mp hentry with hentry | hentry
    · exact nomatch hpin.symm.trans (hstep.sent_for hold hentry hfor)
    · exact hsent' entry hentry hfor

/-- **A session stays pinned to the same worker until it is ended**, and commands for it are sent
to this worker only. -/
theorem pinned (h : Trace r turns sent r') (hold : id.number < r.nextSession)
    (hpin : r.pinned? id = some worker) :
    r'.pinned? id = (if (.endSession id, .ok .ended) ∈ turns then none else some worker) ∧
      ∀ entry ∈ sent, entry.2.session? = some id → entry.1 = worker := by
  induction h with
  | nil => exact ⟨hpin, nofun⟩
  | @cons r r₁ r' operation sent sent' answer turns hstep hrest ih =>
    have hold₁ := Nat.lt_of_lt_of_le hold hstep.effect.nextSession_le
    have hhere : ∀ entry ∈ sent, entry.2.session? = some id → entry.1 = worker :=
      fun entry hentry hfor =>
        (Option.some.inj (hpin.symm.trans (hstep.sent_for hold hentry hfor))).symm
    by_cases hend : (operation, answer) = (.endSession id, .ok .ended)
    · obtain ⟨rfl, rfl⟩ := Prod.mk.inj hend
      obtain ⟨hpin', hsent'⟩ := unpinned hrest hold₁ hstep.effect.pinned?_end
      rw [if_pos List.mem_cons_self]
      refine ⟨hpin', fun entry hentry hfor => ?_⟩
      rcases List.mem_append.mp hentry with hentry | hentry
      · exact hhere entry hentry hfor
      · exact absurd hfor (hsent' entry hentry)
    · obtain ⟨hpin', hsent'⟩ := ih hold₁ ((hstep.effect.pinned?_eq hold hend).trans hpin)
      have hmem : (.endSession id, .ok .ended) ∈ (operation, answer) :: turns ↔
          (.endSession id, .ok .ended) ∈ turns := by
        rw [List.mem_cons, or_iff_right (Ne.symm hend)]
      rw [hpin']
      refine ⟨if_congr hmem.symm rfl rfl, fun entry hentry hfor => ?_⟩
      rcases List.mem_append.mp hentry with hentry | hentry
      · exact hhere entry hentry hfor
      · exact hsent' entry hentry hfor

theorem nextSession_le (h : Trace r turns sent r') : r.nextSession ≤ r'.nextSession := by
  induction h with
  | nil => exact Nat.le_refl _
  | cons hstep _ ih => exact Nat.le_trans hstep.effect.nextSession_le ih

theorem abandoned_subset (h : Trace r turns sent r') : r.abandoned ⊆ r'.abandoned := by
  induction h with
  | nil => exact List.Subset.refl _
  | cons hstep _ ih => exact List.Subset.trans hstep.effect.abandoned_subset ih

theorem length_workers (h : Trace r turns sent r') : r'.workers.length = r.workers.length := by
  induction h with
  | nil => rfl
  | cons hstep _ ih => exact ih.trans hstep.effect.length_workers

theorem pinsInRange (h : Trace r turns sent r') (hr : r.PinsInRange) : r'.PinsInRange := by
  induction h with
  | nil => exact hr
  | cons hstep _ ih => exact ih (hstep.effect.pinsInRange hr)

end Trace

/-! ### The ids that were handed out -/

/-- The session that an answer hands out. -/
def Reply.created? : Except Error Reply → Option SessionId
  | .ok (.created id) => some id
  | _ => none

/-- The ids that callers were given, in order. -/
def issuedIn (turns : List (Operation × Except Error Reply)) : List SessionId :=
  turns.filterMap fun turn => Reply.created? turn.2

/-- A router knows which ids it has handed out, although it keeps no list of them: those that it
has minted and not set aside. -/
structure Issues (r : Router) (issued : List SessionId) : Prop where
  one_le : 1 ≤ r.nextSession
  mem_iff : ∀ id, id ∈ issued ↔ r.wasIssued id = true
  ascending : issued.Pairwise fun id id' => id.number < id'.number
  pinned : ∀ id, r.pinned? id ≠ none → id ∈ issued
  setAside : ∀ id ∈ r.abandoned, id.number < r.nextSession

theorem wasIssued_iff : r.wasIssued id = true ↔
    1 ≤ id.number ∧ id.number < r.nextSession ∧ id ∉ r.abandoned := by
  simp [wasIssued, and_assoc]

theorem eq_nextSession_iff : id = ⟨r.nextSession⟩ ↔ id.number = r.nextSession :=
  ⟨fun heq => heq ▸ rfl, fun heq => by rw [← heq]⟩

namespace Issues

variable {issued : List SessionId}

theorem lt (h : r.Issues issued) (hmem : id ∈ issued) : id.number < r.nextSession :=
  (wasIssued_iff.mp ((h.mem_iff id).mp hmem)).2.1

theorem ofWorkers (workers : List WorkerId) (config : Config) :
    (Router.ofWorkers workers config).Issues [] where
  one_le := Nat.le_refl 1
  mem_iff id := by
    rw [wasIssued_iff]
    refine ⟨nofun, fun ⟨hone, hlt, _⟩ => ?_⟩
    exact absurd hlt (Nat.not_lt.mpr hone)
  ascending := .nil
  pinned _ hpin := absurd rfl hpin
  setAside := nofun

theorem of_same (h : r.Issues issued) (hsame : SameSessions r r') : r'.Issues issued where
  one_le := by rw [hsame.nextSession]; exact h.one_le
  mem_iff id := by rw [hsame.wasIssued]; exact h.mem_iff id
  ascending := h.ascending
  pinned id hpin := by rw [hsame.pinned?] at hpin; exact h.pinned id hpin
  setAside id hmem := by
    rw [hsame.abandoned] at hmem
    rw [hsame.nextSession]
    exact h.setAside id hmem

theorem pin (h : r.Issues issued) (index : Nat) :
    (r.pin index).Issues (issued ++ [⟨r.nextSession⟩]) where
  one_le := Nat.le_succ_of_le h.one_le
  mem_iff id := by
    have hfresh : id.number = r.nextSession → id ∉ r.abandoned := fun heq hmem =>
      Nat.lt_irrefl _ (heq ▸ h.setAside id hmem)
    have hone := h.one_le
    rw [List.mem_append, List.mem_singleton, h.mem_iff, eq_nextSession_iff, wasIssued_iff,
      wasIssued_iff,
      show (r.pin index).nextSession = r.nextSession + 1 from rfl,
      show (r.pin index).abandoned = r.abandoned from rfl]
    by_cases heq : id.number = r.nextSession
    · exact ⟨fun _ => ⟨by omega, by omega, hfresh heq⟩, fun _ => .inr heq⟩
    · rw [or_iff_left heq, Nat.lt_succ_iff_lt_or_eq, or_iff_left heq]
  ascending := by
    refine List.pairwise_append.mpr ⟨h.ascending, List.pairwise_singleton .., ?_⟩
    intro id hmem id' hmem'
    rw [List.mem_singleton.mp hmem']
    exact h.lt hmem
  pinned id hpin := by
    rw [pinned?_pin] at hpin
    split_ifs at hpin with hnew
    · exact List.mem_append_right issued (List.mem_singleton.mpr hnew)
    · exact List.mem_append_left _ (h.pinned id hpin)
  setAside id hmem := Nat.lt_succ_of_lt (h.setAside id hmem)

theorem abandon (h : r.Issues issued) : r.abandon.Issues issued where
  one_le := Nat.le_succ_of_le h.one_le
  mem_iff id := by
    rw [h.mem_iff, wasIssued_iff, wasIssued_iff,
      show r.abandon.nextSession = r.nextSession + 1 from rfl,
      show r.abandon.abandoned = ⟨r.nextSession⟩ :: r.abandoned from rfl, List.mem_cons, not_or,
      eq_nextSession_iff]
    constructor
    · rintro ⟨hone, hlt, hkept⟩
      exact ⟨hone, by omega, by omega, hkept⟩
    · rintro ⟨hone, hlt, hne, hkept⟩
      exact ⟨hone, by omega, hkept⟩
  ascending := h.ascending
  pinned := h.pinned
  setAside id hmem := by
    rcases List.mem_cons.mp hmem with rfl | hmem
    · exact Nat.lt_succ_self _
    · exact Nat.lt_succ_of_lt (h.setAside id hmem)

theorem unpin (h : r.Issues issued) (id : SessionId) (index : Nat) :
    (r.unpin id index).Issues issued where
  one_le := h.one_le
  mem_iff := h.mem_iff
  ascending := h.ascending
  pinned id' hpin := by
    rw [pinned?_unpin] at hpin
    split_ifs at hpin
    · exact absurd rfl hpin
    · exact h.pinned id' hpin
  setAside := h.setAside

theorem step (h : r.Issues issued) (hstep : Step r operation sent answer r') :
    r'.Issues (issued ++ issuedIn [(operation, answer)]) := by
  cases hstep.effect with
  | none hsame hanswer =>
    have hissued : issuedIn [(operation, answer)] = [] := by
      rcases answer with e | reply
      · rfl
      · cases reply with
        | created id => exact absurd rfl (hanswer id)
        | _ => rfl
    rw [hissued, List.append_nil]
    exact h.of_same hsame
  | mint hsame =>
    rw [← hsame.nextSession]
    exact (h.of_same hsame).pin _
  | setAside hsame =>
    rw [show issuedIn [(operation, Except.error _)] = [] from rfl, List.append_nil]
    exact (h.of_same hsame).abandon
  | @unpin id index =>
    rw [show issuedIn [(Operation.endSession id, .ok .ended)] = [] from rfl, List.append_nil]
    exact h.unpin id index

/-- A router knows what it has handed out in the course of a run. -/
theorem trace {turns : List (Operation × Except Error Reply)} (h : r.Issues issued)
    (htrace : Trace r turns sent r') : r'.Issues (issued ++ issuedIn turns) := by
  induction htrace generalizing issued with
  | nil => exact (List.append_nil issued).symm ▸ h
  | @cons r r₁ r' operation sent sent' answer turns hstep _ ih =>
    have hsplit : issuedIn ((operation, answer) :: turns) =
        issuedIn [(operation, answer)] ++ issuedIn turns := by
      rw [← List.singleton_append]
      exact List.filterMap_append
    rw [hsplit, ← List.append_assoc]
    exact ih (h.step hstep)

end Issues

/-! ### Outcomes -/

/-- A create that succeeds has sent one command, to one of the workers. -/
theorem Step.created_inv {sampling : Sampling}
    (h : Step r (.create sampling) sent (.ok (.created id)) r') :
    ∃ worker < r.workers.length, sent = [(worker, .createSession id sampling)] ∧
      id.number < r'.nextSession ∧ r'.pinned? id = some worker := by
  cases h with
  | @created _ index r₀ hselect =>
    have hindex := lt_of_mem_healthyIndices (mem_of_selectWorker hselect)
    refine ⟨index, hindex, rfl, Nat.lt_succ_self _, ?_⟩
    rw [pinned?_pin, if_pos rfl]
  | served hop => cases hop

/-- A create that times out has sent the end of the session after it, and nobody has the id. -/
theorem Step.timedOut_inv {sampling : Sampling} {detail : String}
    (h : Step r (.create sampling) sent (.error (.timeout detail)) r') :
    ∃ worker id, sent = [(worker, .createSession id sampling), (worker, .endSession id)] ∧
      id ∈ r'.abandoned := by
  cases h with
  | unplaced hselect =>
    obtain ⟨detail', heq⟩ := selectWorker_error hselect
    cases heq
  | @retired _ index r₀ _ hselect =>
    refine ⟨index, ⟨r₀.nextSession⟩, rfl, ?_⟩
    rw [← (sameSessions_markFailed r₀ index (.timeout detail)).nextSession]
    exact List.mem_cons_self
  | rejected _ he => exact absurd rfl (he detail)
  | failed hop => cases hop

/-- The end of a session that is not pinned asks no worker. -/
theorem Step.end_unpinned (h : Step r (.endSession id) sent answer r')
    (hpin : r.pinned? id = none) :
    sent = [] ∧ answer = if r.wasIssued id then .ok .ended else .error (.unknownSession id) := by
  cases h with
  | unknown hop _ hend =>
    cases hop
    rw [hend rfl]
    exact ⟨rfl, rfl⟩
  | served hop hend =>
    cases hop
    exact absurd rfl hend
  | failed hop hpin' =>
    cases hop
    exact nomatch hpin.symm.trans hpin'
  | ended hpin' => exact nomatch hpin.symm.trans hpin'
  | endedAgain _ hissued =>
    rw [if_pos hissued]
    exact ⟨rfl, rfl⟩

end Router

namespace Front

variable {σ : Type}

/-- What a session that was created can expect from then on. -/
structure Pins (c : Clients σ) (f : Front σ) (id : SessionId) (worker : Nat) : Prop where
  /-- It is pinned to the worker until it is first ended, and then to none. -/
  pinned : ∀ operations, (f.after c operations).router.pinned? id =
    if (.endSession id, .ok .ended) ∈ f.history c operations then none else some worker
  /-- Commands for it are sent to the worker only. -/
  routed : ∀ operations, ∀ entry ∈ f.commandsSent c operations,
    entry.2.session? = some id → entry.1 = worker
  /-- No command is sent for it after it was ended. -/
  quiet : ∀ operations, (.endSession id, .ok .ended) ∈ f.history c operations →
    ∀ later, ∀ entry ∈ (f.after c operations).commandsSent c later, entry.2.session? ≠ some id

/-- A session that is not pinned, and whose end fails without asking a worker. -/
structure Unknown (c : Clients σ) (f : Front σ) (id : SessionId) : Prop where
  unpinned : f.router.pinned? id = none
  answer : (f.perform c (.endSession id)).1 = .error (.unknownSession id)
  silent : f.commandsSent c [.endSession id] = []

theorem pins_of_pinned (c : Clients σ) {f : Front σ} {id : SessionId} {worker : Nat}
    (hold : id.number < f.router.nextSession) (hpin : f.router.pinned? id = some worker) :
    f.Pins c id worker where
  pinned operations := ((f.trace_front c operations).pinned hold hpin).1
  routed operations := ((f.trace_front c operations).pinned hold hpin).2
  quiet operations hend later := by
    have htrace := f.trace_front c operations
    have hgone := (htrace.pinned hold hpin).1
    rw [if_pos hend] at hgone
    have hold' := Nat.lt_of_lt_of_le hold htrace.nextSession_le
    exact (((f.after c operations).trace_front c later).unpinned hold' hgone).2

theorem end_unpinned (c : Clients σ) {f : Front σ} {issued : List SessionId} {id : SessionId}
    (hissues : f.router.Issues issued) (hpin : f.router.pinned? id = none) :
    (f.perform c (.endSession id)).1 =
        (if id ∈ issued then .ok .ended else .error (.unknownSession id)) ∧
      f.commandsSent c [.endSession id] = [] := by
  obtain ⟨hsent, hanswer⟩ := (f.step_perform c (.endSession id)).end_unpinned hpin
  refine ⟨hanswer.trans ?_, hsent⟩
  exact if_congr (hissues.mem_iff id).symm rfl rfl

/-- An id that was never handed out is unknown. -/
theorem unknown_of_not_issued (c : Clients σ) {f : Front σ} {issued : List SessionId}
    {id : SessionId} (hissues : f.router.Issues issued) (hnot : id ∉ issued) :
    f.Unknown c id := by
  have hpin : f.router.pinned? id = none := by
    by_contra hpin
    exact hnot (hissues.pinned id hpin)
  obtain ⟨hanswer, hsent⟩ := end_unpinned c hissues hpin
  rw [if_neg hnot] at hanswer
  exact ⟨hpin, hanswer, hsent⟩

/-- **Pins and ids are kept straight however the workers answer.** After any operations, the ids
that were handed out ascend from one, so none was handed out twice. A session that is created stays
pinned to the worker that was asked to create it until it is first ended, and is not pinned again.
The end of a session that is not pinned succeeds if its id was handed out and fails otherwise, and
asks no worker; in particular, it fails for ids of creates that timed out, for zero, and for ids
that are yet to come. -/
theorem sessions_run (c : Clients σ) (pool : σ) (workers : Nat) (config : Config)
    (operations : List Operation) :
    let start : Front σ :=
      { router := .ofWorkers ((List.range workers).map WorkerId.mk) config, pool }
    let f := start.after c operations
    let issued := Router.issuedIn (start.history c operations)
    (issued.Pairwise (fun id id' => id.number < id'.number) ∧ ∀ id ∈ issued, 1 ≤ id.number) ∧
    (∀ sampling id, (f.perform c (.create sampling)).1 = .ok (.created id) →
      ∃ worker < workers,
        f.commandsSent c [.create sampling] = [(worker, .createSession id sampling)] ∧
        (f.perform c (.create sampling)).2.Pins c id worker) ∧
    (∀ id, f.router.pinned? id = none →
      (f.perform c (.endSession id)).1 =
          (if id ∈ issued then .ok .ended else .error (.unknownSession id)) ∧
        f.commandsSent c [.endSession id] = []) ∧
    (∀ sampling detail, (f.perform c (.create sampling)).1 = .error (.timeout detail) →
      ∃ worker id,
        f.commandsSent c [.create sampling] =
          [(worker, .createSession id sampling), (worker, .endSession id)] ∧
        ∀ later, (f.after c (.create sampling :: later)).Unknown c id) ∧
    ∀ id, id.number = 0 ∨ f.router.nextSession ≤ id.number → f.Unknown c id := by
  intro start f issued
  have htrace : start.router.Trace (start.history c operations) (start.commandsSent c operations)
      f.router := start.trace_front c operations
  have hissues : f.router.Issues issued := by
    have hempty := Router.Issues.ofWorkers ((List.range workers).map WorkerId.mk) config
    exact hempty.trace htrace
  have hworkers : f.router.workers.length = workers := by
    rw [htrace.length_workers]
    show (((List.range workers).map WorkerId.mk).map _).length = workers
    rw [List.length_map, List.length_map, List.length_range]
  refine ⟨⟨hissues.ascending, ?_⟩, ?_, ?_, ?_, ?_⟩
  · intro id hmem
    exact (Router.wasIssued_iff.mp ((hissues.mem_iff id).mp hmem)).1
  · intro sampling id hcreated
    have hstep := f.step_perform c (.create sampling)
    rw [hcreated] at hstep
    obtain ⟨worker, hworker, hsent, hold, hpin⟩ := hstep.created_inv
    exact ⟨worker, hworkers ▸ hworker, hsent, pins_of_pinned c hold hpin⟩
  · exact fun id hpin => end_unpinned c hissues hpin
  -- Whatever comes later, an id stays among the abandoned ones, and no abandoned id counts as
  -- issued.
  · intro sampling detail htimeout
    have hstep := f.step_perform c (.create sampling)
    rw [htimeout] at hstep
    obtain ⟨worker, id, hsent, hretired⟩ := hstep.timedOut_inv
    refine ⟨worker, id, hsent, fun later => ?_⟩
    have hissues' := hissues.trace (f.trace_front c (.create sampling :: later))
    have hkept := ((f.perform c (.create sampling)).2.trace_front c later).abandoned_subset hretired
    refine unknown_of_not_issued c hissues' fun hmem => ?_
    exact (Router.wasIssued_iff.mp ((hissues'.mem_iff id).mp hmem)).2.2 hkept
  · intro id hid
    refine unknown_of_not_issued c hissues fun hmem => ?_
    obtain ⟨hone, hlt, -⟩ := Router.wasIssued_iff.mp ((hissues.mem_iff id).mp hmem)
    omega

/-- A pool of two workers, of which the second one never answers. -/
def oneStalled : Pool (ByteModel.backend {}) where
  hosts :=
    [{ worker := .start ⟨0⟩ (ByteModel.Context.mk [[]]) {}, ackTimeoutMs := 5 },
      { worker := .start ⟨1⟩ (ByteModel.Context.mk [[]]) {}, ackTimeoutMs := 5, state := .stalled }]

/-- The first create hands out the first id, and the second one times out, so that its id is
unknown, whatever is asked later. The first session is ended once. Its end succeeds again without
asking a worker, and the next create hands out the third id. -/
theorem sessions_run_retired :
    let start : Front (Pool (ByteModel.backend {})) :=
      { router := .ofWorkers ((List.range 2).map WorkerId.mk) {}, pool := oneStalled }
    let operations : List Operation := [.create {}, .create {}, .endSession ⟨1⟩]
    let f := start.after Pool.clients operations
    Router.issuedIn (start.history Pool.clients operations) = [⟨1⟩] ∧
      (∀ later, ((start.after Pool.clients [.create {}]).after Pool.clients
        (.create {} :: later)).Unknown Pool.clients ⟨2⟩) ∧
      ((f.perform Pool.clients (.endSession ⟨1⟩)).1 = .ok .ended ∧
        f.commandsSent Pool.clients [.endSession ⟨1⟩] = []) ∧
      ∃ worker < 2, f.commandsSent Pool.clients [.create {}] = [(worker, .createSession ⟨3⟩ {})] ∧
        (f.perform Pool.clients (.create {})).2.Pins Pool.clients ⟨3⟩ worker := by
  intro start operations f
  have hissued : Router.issuedIn (start.history Pool.clients operations) = [⟨1⟩] := by
    decide +kernel
  have hended : f.router.pinned? ⟨1⟩ = none := by decide +kernel
  have hcreated : (f.perform Pool.clients (.create {})).1 = .ok (.created ⟨3⟩) := by
    decide +kernel
  have htimeout : ((start.after Pool.clients [.create {}]).perform Pool.clients (.create {})).1 =
      .error (.timeout "worker-1 did not acknowledge within 5ms") := by
    decide +kernel
  have hsent : (start.after Pool.clients [.create {}]).commandsSent Pool.clients [.create {}] =
      [(1, .createSession ⟨2⟩ {}), (1, .endSession ⟨2⟩)] := by
    decide +kernel
  obtain ⟨-, hpins, hends, -, -⟩ := sessions_run Pool.clients oneStalled 2 {} operations
  obtain ⟨-, -, -, htimeouts, -⟩ := sessions_run Pool.clients oneStalled 2 {} [.create {}]
  obtain ⟨worker, id, hsent', hunknown⟩ := htimeouts {} _ htimeout
  have hsame : (⟨2⟩ : SessionId) = id := by
    have hdetached := (List.cons.inj (hsent.symm.trans hsent')).2
    exact Command.endSession.inj (Prod.mk.inj (List.cons.inj hdetached).1).2
  refine ⟨hissued, fun later => hsame ▸ hunknown later, ?_, hpins {} ⟨3⟩ hcreated⟩
  obtain ⟨hanswer, hsilent⟩ := hends ⟨1⟩ hended
  refine ⟨hanswer.trans (if_pos ?_), hsilent⟩
  exact hissued ▸ List.mem_singleton_self _

end Front

end Turnwise
