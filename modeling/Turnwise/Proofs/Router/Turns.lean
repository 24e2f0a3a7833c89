import Mathlib.Data.Int.CardIntervalMod
import Turnwise.Proofs.Router.Bookkeeping

/-!
# Taking turns

With the policy of turns, new sessions go to the healthy workers one after the other. The cursor is
an index among all workers, though, and the workers that can be reached become fewer in the course
of a run, so the cursor may point to one that is skipped.

What counts is the place of the cursor (`Router.place`): the number of healthy workers before it.
The worker whose turn it is stands at this place in the list of the healthy ones, taken modulo their
number (`nextInTurn?_eq`). Picking it moves the place on by one (`place_next`), and nothing else
moves the cursor (`Step.keepsTurn`). So a window of a run in which the same workers are healthy at
every pick goes through them in a cycle (`exists_pick_of_window`).

A worker can be picked by a create, and also by itself, without creating a session (`Request`).
-/

namespace Turnwise

/-! ### Increasing lists -/

section Increasing

variable {list : List Nat}

/-- The first number from a bound on has all smaller numbers before it. -/
theorem find?_le_eq (hlist : list.Pairwise (· < ·)) (bound : Nat) :
    list.find? (bound ≤ ·) = list[list.countP (· < bound)]? := by
  induction list with
  | nil => rfl
  | cons first rest ih =>
    obtain ⟨hfirst, hrest⟩ := List.pairwise_cons.mp hlist
    by_cases hbound : bound ≤ first
    · have hnone : rest.countP (· < bound) = 0 := by
        refine List.countP_eq_zero.mpr fun other hother => ?_
        have hlt := hfirst other hother
        simp only [decide_eq_true_eq]
        omega
      rw [List.find?_cons_of_pos (by simpa), List.countP_cons_of_neg (by simpa), hnone,
        List.getElem?_cons_zero]
    · rw [List.find?_cons_of_neg (by simpa using hbound),
        List.countP_cons_of_pos (by simpa using hbound), List.getElem?_cons_succ, ih hrest]

/-- As many numbers as its index are smaller than a number of the list. -/
theorem countP_lt_succ (hlist : list.Pairwise (· < ·)) {i x : Nat} (hi : list[i]? = some x) :
    list.countP (· < x + 1) = i + 1 := by
  induction list generalizing i with
  | nil => cases hi
  | cons first rest ih =>
    obtain ⟨hfirst, hrest⟩ := List.pairwise_cons.mp hlist
    cases i with
    | zero =>
      obtain rfl := Option.some.inj hi
      have hnone : rest.countP (· < first + 1) = 0 := by
        refine List.countP_eq_zero.mpr fun other hother => ?_
        have hlt := hfirst other hother
        simp only [decide_eq_true_eq]
        omega
      rw [List.countP_cons_of_pos (by simp), hnone]
    | succ i =>
      rw [List.getElem?_cons_succ] at hi
      have hlt := hfirst x (List.mem_of_getElem? hi)
      rw [List.countP_cons_of_pos (by simpa using Nat.lt_succ_of_lt hlt), ih hrest hi]

end Increasing

/-- Among `k` consecutive numbers those that have a given remainder modulo `m` are `k / m`, rounded
down or up. -/
theorem count_add_mod_eq (first k : Nat) {m remainder : Nat} (hremainder : remainder < m) :
    Nat.count (fun i => (first + i) % m = remainder) k = k / m ∨
      Nat.count (fun i => (first + i) % m = remainder) k = (k + m - 1) / m := by
  have hm : 0 < m := Nat.zero_lt_of_lt hremainder
  -- Shifted by `first`, these are the numbers with a remainder of their own.
  have hshift : ∀ i, (first + i) % m = remainder ↔ i ≡ remainder + (m - first % m) [MOD m] := by
    intro i
    have hfirst := Nat.mod_lt first hm
    rw [← Nat.ModEq.add_iff_left (Nat.ModEq.refl (first % m)), Nat.ModEq]
    have hsum : first % m + (remainder + (m - first % m)) = remainder + m := by omega
    rw [hsum, Nat.add_mod_right, Nat.mod_eq_of_lt hremainder, Nat.mod_add_mod]
  simp only [hshift, Nat.count_modEq_card k hm]
  split_ifs with hless
  · right
    have hk := Nat.div_add_mod k m
    have hpos : 0 < k % m := Nat.zero_lt_of_lt hless
    have hlt := Nat.mod_lt k hm
    refine (Nat.div_eq_of_lt_le ?_ ?_).symm
    · rw [Nat.add_mul, Nat.mul_comm]
      omega
    · rw [Nat.add_mul, Nat.add_mul, Nat.mul_comm]
      omega
  · exact Or.inl rfl

namespace Router

variable {r r' r'' : Router} {operation : Operation} {sent : Sent} {answer : Except Error Reply}
  {index : Nat}

/-! ### The worker whose turn it is -/

/-- As far as the router knows, the worker at an index can be reached. -/
def IsHealthy (r : Router) (index : Nat) : Prop :=
  ∃ info, r.workers[index]? = some info ∧ info.healthy = true

theorem mem_healthyIndices : index ∈ r.healthyIndices ↔ r.IsHealthy index := by
  simp [healthyIndices, IsHealthy, List.mem_zipIdx_iff_getElem?]

theorem forall_not_isHealthy_iff :
    (∀ index, ¬ r.IsHealthy index) ↔ ∀ info ∈ r.workers, info.healthy = false := by
  constructor
  · intro hnone info hmem
    obtain ⟨index, hindex⟩ := List.getElem?_of_mem hmem
    exact Bool.eq_false_iff.mpr fun hhealthy => hnone index ⟨info, hindex, hhealthy⟩
  · rintro hnone index ⟨info, hindex, hhealthy⟩
    exact Bool.false_ne_true ((hnone info (List.mem_of_getElem? hindex)).symm.trans hhealthy)

/-- The number of healthy workers before the cursor. -/
def place (r : Router) : Nat := r.healthyIndices.countP (· < r.cursor)

theorem nextInTurn?_eq (r : Router) :
    r.nextInTurn? = r.healthyIndices[r.place % r.healthyIndices.length]? := by
  unfold nextInTurn?
  rw [find?_le_eq r.pairwise_healthyIndices, ← place]
  rcases Nat.lt_or_eq_of_le (List.countP_le_length (p := (· < r.cursor)) (l := r.healthyIndices))
    with hplace | hplace
  · rw [← place] at hplace
    rw [Nat.mod_eq_of_lt hplace, List.getElem?_eq_getElem hplace]
  · -- All of them are before the cursor, so the first one is next.
    rw [← place] at hplace
    rw [hplace, List.getElem?_eq_none (Nat.le_refl _), Nat.mod_self, List.head?_eq_getElem?]

theorem nextInTurn?_eq_none_iff : r.nextInTurn? = none ↔ ∀ index, ¬ r.IsHealthy index := by
  rw [nextInTurn?_eq, List.getElem?_eq_none_iff]
  simp only [← mem_healthyIndices, ← List.eq_nil_iff_forall_not_mem, ← List.length_eq_zero_iff]
  constructor
  · intro hle
    by_contra hpos
    exact Nat.not_lt.mpr hle (Nat.mod_lt _ (Nat.pos_of_ne_zero hpos))
  · intro hzero
    rw [hzero]
    exact Nat.zero_le _

/-- The worker that is picked for the next session, if there is one. -/
def pick (r : Router) : Except Error Nat := r.selectWorker.1

theorem pick_eq_ok_iff (hpolicy : r.selection = .roundRobin) :
    r.pick = .ok index ↔ r.nextInTurn? = some index := by
  unfold pick selectWorker
  rw [hpolicy]
  dsimp only
  cases r.nextInTurn? <;> simp

theorem pick_eq_error_iff (hpolicy : r.selection = .roundRobin) :
    (∃ e, r.pick = .error e) ↔ ∀ index, ¬ r.IsHealthy index := by
  rw [← nextInTurn?_eq_none_iff]
  unfold pick selectWorker
  rw [hpolicy]
  dsimp only
  cases r.nextInTurn? <;> simp

theorem isHealthy_of_pick (h : r.pick = .ok index) : r.IsHealthy index := by
  have hselect : r.selectWorker = (.ok index, r.selectWorker.2) := Prod.ext h rfl
  exact mem_healthyIndices.mp (mem_of_selectWorker hselect)

/-- The router after a worker was picked. -/
def picked (r : Router) : Router := r.selectWorker.2

theorem cursor_picked (hpolicy : r.selection = .roundRobin) (hturn : r.nextInTurn? = some index) :
    r.picked.cursor = (index + 1) % r.workers.length := by
  unfold picked selectWorker
  rw [hpolicy, hturn]

/-- Picking a worker moves the place of the cursor on by one. -/
theorem place_next (hturn : r.nextInTurn? = some index) :
    r.healthyIndices.countP (· < (index + 1) % r.workers.length) % r.healthyIndices.length =
      (r.place + 1) % r.healthyIndices.length := by
  rw [nextInTurn?_eq] at hturn
  have hafter := countP_lt_succ r.pairwise_healthyIndices hturn
  have hindex := lt_of_mem_healthyIndices (List.mem_of_getElem? hturn)
  rw [← Nat.mod_add_mod r.place]
  rcases Nat.lt_or_eq_of_le (Nat.succ_le_of_lt hindex) with hless | hlast
  · rw [Nat.mod_eq_of_lt hless, hafter]
  · -- The last worker was picked, so the cursor starts again.
    have hlast : index + 1 = r.workers.length := hlast
    have hall : r.healthyIndices.countP (· < index + 1) = r.healthyIndices.length := by
      refine List.countP_eq_length.mpr fun other hother => decide_eq_true ?_
      rw [hlast]
      exact lt_of_mem_healthyIndices hother
    have hnone : r.healthyIndices.countP (· < 0) = 0 := by simp
    rw [← hafter, hall, hlast, Nat.mod_self, hnone, Nat.zero_mod, Nat.mod_self]

/-! ### What leaves the turn alone -/

/-- The policy and the number of workers are as they were, and no worker has become healthy. -/
structure Ages (r r' : Router) : Prop where
  selection : r'.selection = r.selection
  workers : r'.workers.length = r.workers.length
  healthy : ∀ index, r'.IsHealthy index → r.IsHealthy index

namespace Ages

theorem refl (r : Router) : Ages r r := ⟨rfl, rfl, fun _ => id⟩

theorem trans (h : Ages r r') (h' : Ages r' r'') : Ages r r'' where
  selection := h'.selection.trans h.selection
  workers := h'.workers.trans h.workers
  healthy index hhealthy := h.healthy index (h'.healthy index hhealthy)

/-- An unhealthy worker is not picked later on. -/
theorem pick_ne (h : Ages r r') (hunhealthy : ¬ r.IsHealthy index) : r'.pick ≠ .ok index :=
  fun hpick => hunhealthy (h.healthy index (isHealthy_of_pick hpick))

end Ages

theorem ages_picked (r : Router) : Ages r r.picked := by
  have hselect : r.selectWorker = (r.pick, r.picked) := rfl
  obtain ⟨cursor, -, heq⟩ := exists_cursor_of_selectWorker hselect
  rw [heq]
  exact ⟨rfl, rfl, fun _ => id⟩

/-- Besides, the cursor is where it was. -/
structure KeepsTurn (r r' : Router) : Prop extends Ages r r' where
  cursor : r'.cursor = r.cursor

namespace KeepsTurn

theorem refl (r : Router) : KeepsTurn r r := ⟨.refl r, rfl⟩

theorem trans (h : KeepsTurn r r') (h' : KeepsTurn r' r'') : KeepsTurn r r'' :=
  ⟨h.toAges.trans h'.toAges, h'.cursor.trans h.cursor⟩

theorem of_same (hworkers : r'.workers = r.workers) (hselection : r'.selection = r.selection)
    (hcursor : r'.cursor = r.cursor) : KeepsTurn r r' :=
  ⟨⟨hselection, by rw [hworkers], fun _ h => by rwa [IsHealthy, hworkers] at h⟩, hcursor⟩

/-- One worker has changed, but has not become healthy. -/
theorem of_modify {f : WorkerInfo → WorkerInfo} (hworkers : r'.workers = r.workers.modify index f)
    (hf : ∀ info, (f info).healthy = true → info.healthy = true)
    (hselection : r'.selection = r.selection) (hcursor : r'.cursor = r.cursor) :
    KeepsTurn r r' where
  selection := hselection
  cursor := hcursor
  workers := by rw [hworkers, List.length_modify]
  healthy other := by
    rintro ⟨info, hinfo, hhealthy⟩
    rw [hworkers, List.getElem?_modify] at hinfo
    obtain ⟨info', hinfo', rfl⟩ := Option.map_eq_some_iff.mp hinfo
    refine ⟨info', hinfo', ?_⟩
    split_ifs at hhealthy
    · exact hf info' hhealthy
    · exact hhealthy

theorem markFailed (r : Router) (index : Nat) (e : Error) :
    KeepsTurn r (r.markFailed index e) := by
  obtain ⟨failures, heq⟩ := r.exists_markFailed_eq index e
  rw [heq]
  by_cases he : e.isUnreachable = true
  · exact of_modify (if_pos he) (fun _ => nofun) rfl rfl
  · exact of_same (if_neg he) rfl rfl

theorem pin (r : Router) (index : Nat) : KeepsTurn r (r.pin index) :=
  of_modify rfl (fun _ => id) rfl rfl

theorem unpin (r : Router) (session : SessionId) (index : Nat) :
    KeepsTurn r (r.unpin session index) :=
  of_modify rfl (fun _ => id) rfl rfl

end KeepsTurn

end Router

/-! ### Runs -/

/-- Whether the operation picks a worker for a new session. -/
def Operation.picks : Operation → Bool
  | create _ => true
  | _ => false

/-- What can be asked of a router: an operation, or to pick a worker and do no more. -/
inductive Request where
  | perform (operation : Operation)
  | pick
  deriving DecidableEq, Repr

def Request.picks : Request → Bool
  | perform operation => operation.picks
  | pick => true

namespace Router

variable {r r' : Router} {operation : Operation} {sent : Sent} {answer : Except Error Reply}
  {index : Nat}

/-- Only a create moves the cursor, by picking a worker. -/
theorem Step.keepsTurn (h : Step r operation sent answer r') :
    KeepsTurn (if operation.picks then r.picked else r) r' := by
  have hpicked : ∀ {choice r₀}, r.selectWorker = (choice, r₀) → r.picked = r₀ :=
    fun hselect => congrArg Prod.snd hselect
  have hstays : ∀ {id command}, operation.command? r = some (id, command) →
      operation.picks = false := by
    intro id command hop
    cases operation <;> cases hop <;> rfl
  cases h with
  | unplaced hselect => exact hpicked hselect ▸ .refl _
  | created hselect => exact hpicked hselect ▸ .pin _ _
  | retired hselect =>
    exact hpicked hselect ▸ (KeepsTurn.markFailed ..).trans (.of_same rfl rfl rfl)
  | rejected hselect => exact hpicked hselect ▸ .markFailed ..
  | unknown hop =>
    rw [hstays hop, if_neg Bool.false_ne_true]
    exact .of_same rfl rfl rfl
  | served hop =>
    rw [hstays hop, if_neg Bool.false_ne_true]
    exact .refl r
  | failed hop =>
    rw [hstays hop, if_neg Bool.false_ne_true]
    exact .markFailed ..
  | ended => exact .unpin ..
  | endedAgain | surveyed => exact .refl _
  | unsurveyed => exact .markFailed ..

/-- A create goes to the worker that is picked for it. -/
theorem Step.head?_sent {sampling : Sampling} (h : Step r (.create sampling) sent answer r')
    (hpick : r.pick = .ok index) :
    sent.head? = some (index, .createSession ⟨r.nextSession⟩ sampling) := by
  have hselected : ∀ {index' r₀}, r.selectWorker = (.ok index', r₀) →
      index' = index ∧ r₀.nextSession = r.nextSession := by
    intro index' r₀ hselect
    rw [pick, hselect] at hpick
    exact ⟨Except.ok.inj hpick, (sameSessions_selectWorker hselect).nextSession⟩
  cases h with
  | unplaced hselect =>
    rw [pick, hselect] at hpick
    cases hpick
  | created hselect | retired hselect | rejected hselect =>
    obtain ⟨rfl, hnext⟩ := hselected hselect
    rw [hnext]
    rfl
  | unknown hop | served hop | failed hop => cases hop

end Router

namespace Front

variable {σ : Type} {c : Clients σ} {f : Front σ} {requests : List Request}

def serve (c : Clients σ) (f : Front σ) : Request → Front σ
  | .perform operation => (f.perform c operation).2
  | .pick => { f with router := f.router.picked }

/-- The front after some requests. -/
def serveAll (c : Clients σ) (f : Front σ) (requests : List Request) : Front σ :=
  requests.foldl (serve c) f

/-- The router each time that a worker is picked in the course of some requests. -/
def pickings (c : Clients σ) (f : Front σ) : List Request → List Router
  | [] => []
  | request :: rest =>
      if request.picks then f.router :: (f.serve c request).pickings c rest
      else (f.serve c request).pickings c rest

theorem keepsTurn_serve (c : Clients σ) (f : Front σ) (request : Request) :
    (if request.picks then f.router.picked else f.router).KeepsTurn
      (f.serve c request).router := by
  cases request with
  | perform operation =>
    rw [Request.picks]
    exact (f.step_perform c operation).keepsTurn
  | pick =>
    rw [Request.picks, if_pos rfl]
    exact .refl _

theorem ages_serve (c : Clients σ) (f : Front σ) (request : Request) :
    f.router.Ages (f.serve c request).router := by
  have hturn := (f.keepsTurn_serve c request).toAges
  split_ifs at hturn
  · exact f.router.ages_picked.trans hturn
  · exact hturn

theorem ages_serveAll (c : Clients σ) (f : Front σ) (requests : List Request) :
    f.router.Ages (f.serveAll c requests).router := by
  induction requests generalizing f with
  | nil => exact .refl _
  | cons request rest ih => exact (f.ages_serve c request).trans (ih (f.serve c request))

theorem ages_of_mem_pickings {r : Router} (h : r ∈ f.pickings c requests) : f.router.Ages r := by
  induction requests generalizing f with
  | nil => exact absurd h List.not_mem_nil
  | cons request rest ih =>
    rw [pickings] at h
    split_ifs at h
    · rcases List.mem_cons.mp h with rfl | h
      · exact .refl _
      · exact (f.ages_serve c request).trans (ih h)
    · exact (f.ages_serve c request).trans (ih h)

/-- **The picks go round.** As long as the same workers are healthy whenever one is picked, they are
picked one after the other, beginning at the place of the cursor. -/
theorem exists_pick_of_window (hpolicy : f.router.selection = .roundRobin) {healthy : List Nat}
    (hsorted : healthy.Pairwise (· < ·)) (hne : healthy ≠ [])
    (hwindow : ∀ r ∈ f.pickings c requests, ∀ index, r.IsHealthy index ↔ index ∈ healthy)
    {turn : Nat} {r : Router} (hr : (f.pickings c requests)[turn]? = some r) :
    ∃ index, r.pick = .ok index ∧
      healthy[(healthy.countP (· < f.router.cursor) + turn) % healthy.length]? = some index := by
  induction requests generalizing f turn with
  | nil => cases hr
  | cons request rest ih =>
    have hkeeps := f.keepsTurn_serve c request
    have hpolicy' : (f.serve c request).router.selection = .roundRobin :=
      (f.ages_serve c request).selection.trans hpolicy
    rw [pickings] at hwindow hr
    -- A request that picks nobody leaves the cursor alone and takes no turn.
    split_ifs at hkeeps hwindow hr with hpicks
    · obtain ⟨hnow, hlater⟩ := List.forall_mem_cons.mp hwindow
      have hhealthy : f.router.healthyIndices = healthy :=
        f.router.pairwise_healthyIndices.eq_of_mem_iff hsorted fun index =>
          Router.mem_healthyIndices.trans (hnow index)
      have hturn := f.router.nextInTurn?_eq
      rw [Router.place, hhealthy] at hturn
      have hlt := Nat.mod_lt (healthy.countP (· < f.router.cursor)) (List.length_pos_of_ne_nil hne)
      rw [List.getElem?_eq_getElem hlt] at hturn
      cases turn with
      | zero =>
        obtain rfl := Option.some.inj hr
        exact ⟨_, (Router.pick_eq_ok_iff hpolicy).mpr hturn, List.getElem?_eq_getElem hlt⟩
      -- The cursor has moved past the worker just picked, so its place in the list has grown by
      -- one.
      | succ turn =>
        obtain ⟨index, hpick, hindex⟩ := ih hpolicy' hlater hr
        refine ⟨index, hpick, ?_⟩
        have hnext := Router.place_next hturn
        rw [Router.place, hhealthy] at hnext
        rwa [hkeeps.cursor, Router.cursor_picked hpolicy hturn, ← Nat.mod_add_mod, hnext,
          Nat.mod_add_mod, Nat.add_right_comm, Nat.add_assoc] at hindex
    · rw [← hkeeps.cursor]
      exact ih hpolicy' hwindow hr

/-- In such a window each of the healthy workers is picked equally often, up to one time. -/
theorem count_picks_of_window (hpolicy : f.router.selection = .roundRobin) {healthy : List Nat}
    (hsorted : healthy.Pairwise (· < ·))
    (hwindow : ∀ r ∈ f.pickings c requests, ∀ index, r.IsHealthy index ↔ index ∈ healthy)
    {index : Nat} (hindex : index ∈ healthy) :
    let picks := (f.pickings c requests).map Router.pick
    picks.count (.ok index) = picks.length / healthy.length ∨
      picks.count (.ok index) = (picks.length + healthy.length - 1) / healthy.length := by
  intro picks
  obtain ⟨place, hplace, rfl⟩ := List.getElem_of_mem hindex
  have hnodup : healthy.Nodup := hsorted.imp Nat.ne_of_lt
  let first := healthy.countP (· < f.router.cursor)
  have hpicks : picks = (List.range picks.length).map fun turn =>
      .ok (healthy.getD ((first + turn) % healthy.length) 0) := by
    refine List.ext_getElem (by simp) fun turn hturn _ => ?_
    rw [List.length_map] at hturn
    obtain ⟨index, hpick, hnext⟩ := exists_pick_of_window hpolicy hsorted
      (List.ne_nil_of_length_pos (Nat.zero_lt_of_lt hplace)) hwindow
      (List.getElem?_eq_getElem hturn)
    simp only [picks, first, List.getElem_map, List.getElem_range, hpick,
      List.getD_eq_getElem?_getD, hnext, Option.getD_some]
  -- The turns of the worker are those that lead to its place.
  have hcount : picks.count (.ok healthy[place]) =
      Nat.count (fun turn => (first + turn) % healthy.length = place) picks.length := by
    rw [Nat.count]
    conv_lhs => rw [hpicks, List.count, List.countP_map]
    refine List.countP_congr fun turn _ => ?_
    have hlt := Nat.mod_lt (first + turn) (Nat.zero_lt_of_lt hplace)
    simp [List.getD_eq_getElem?_getD, List.getElem?_eq_getElem hlt, hnodup.getElem_inj_iff]
  rw [hcount]
  exact count_add_mod_eq first picks.length hplace

/-- **With the policy of turns the healthy workers get the new sessions one after the other**, after
any operations and picks, however the workers answer.

* A pick fails if and only if no worker is healthy.
* Otherwise it gives a healthy worker, and a create sends its command there.
* Suppose that the same workers are healthy at every pick in the course of further requests. Then
  the picks run through these workers in the order of their indices, the first after the last. So
  of `k` picks each of `m` healthy workers gets `k / m`, rounded down or up.
* A worker that is not healthy is never picked later on. -/
theorem round_robin_run (c : Clients σ) (pool : σ) (workers : Nat) (config : Config)
    (hpolicy : config.engine.selection = .roundRobin) (requests : List Request) :
    let start : Front σ :=
      { router := .ofWorkers ((List.range workers).map WorkerId.mk) config, pool }
    let f := start.serveAll c requests
    f.router.workers.length = workers ∧
    ((∃ e, f.router.pick = .error e) ↔ ∀ info ∈ f.router.workers, info.healthy = false) ∧
    (∀ index, f.router.pick = .ok index →
      f.router.IsHealthy index ∧
      ∀ sampling, (f.commandsSent c [.create sampling]).head? =
        some (index, .createSession ⟨f.router.nextSession⟩ sampling)) ∧
    (∀ (later : List Request) (healthy : List Nat), healthy.Pairwise (· < ·) → healthy ≠ [] →
      (∀ r ∈ f.pickings c later, ∀ index, r.IsHealthy index ↔ index ∈ healthy) →
      let picks := (f.pickings c later).map Router.pick
      (∃ first, ∀ turn < picks.length, ∃ index,
        healthy[(first + turn) % healthy.length]? = some index ∧
          picks[turn]? = some (.ok index)) ∧
      ∀ index ∈ healthy, picks.count (.ok index) = picks.length / healthy.length ∨
        picks.count (.ok index) = (picks.length + healthy.length - 1) / healthy.length) ∧
    (∀ (later : List Request) (index : Nat), ¬ f.router.IsHealthy index →
      ∀ r ∈ f.pickings c later, r.pick ≠ .ok index) := by
  intro start f
  have hages := start.ages_serveAll c requests
  have hpolicy' : f.router.selection = .roundRobin := hages.selection.trans hpolicy
  have hlength : start.router.workers.length = workers := by
    show (((List.range workers).map WorkerId.mk).map _).length = workers
    rw [List.length_map, List.length_map, List.length_range]
  refine ⟨hages.workers.trans hlength, ?_, fun index hpick => ⟨?_, fun sampling => ?_⟩, ?_, ?_⟩
  · rw [Router.pick_eq_error_iff hpolicy', Router.forall_not_isHealthy_iff]
  · exact Router.isHealthy_of_pick hpick
  · exact (f.step_perform c (.create sampling)).head?_sent hpick
  · intro later healthy hsorted hne hwindow picks
    refine ⟨⟨healthy.countP (· < f.router.cursor), fun turn hturn => ?_⟩, fun index hindex =>
      count_picks_of_window hpolicy' hsorted hwindow hindex⟩
    rw [List.length_map] at hturn
    have hr := List.getElem?_eq_getElem hturn
    obtain ⟨index, hpick, hindex⟩ := exists_pick_of_window hpolicy' hsorted hne hwindow hr
    refine ⟨index, hindex, ?_⟩
    rw [List.getElem?_map, hr, Option.map_some, hpick]
  · exact fun later index hunhealthy r hr => (ages_of_mem_pickings hr).pick_ne hunhealthy

/-- Three workers, of which the second is found unreachable by the second create. The others take
turns after that. -/
theorem round_robin_run_three :
    let reach (index : Nat) (_ : Command) (s : Unit) : Except Error Ack × Unit :=
      (if index = 1 then .error (.workerUnavailable "gone") else .ok (.created ⟨0⟩), s)
    let c : Clients Unit := .over reach
      (fun index command s => Prod.map (Except.map some) id (reach index command s))
      (fun index command s => Prod.map (Except.map some) id (reach index command s))
    let start : Front Unit :=
      { router := .ofWorkers ((List.range 3).map WorkerId.mk) {}, pool := () }
    let f := start.serveAll c [.perform (.create {}), .perform (.create {})]
    let later : List Request := [.perform (.create {}), .pick, .perform (.create {})]
    let picks := (f.pickings c later).map Router.pick
    ({} : Config).engine.selection = .roundRobin ∧
      [0, 2].Pairwise (· < ·) ∧
      (∀ r ∈ f.pickings c later, ∀ index, r.IsHealthy index ↔ index ∈ [0, 2]) ∧
      (∃ first, ∀ turn < picks.length, ∃ index,
        [0, 2][(first + turn) % 2]? = some index ∧ picks[turn]? = some (.ok index)) ∧
      picks = [.ok 2, .ok 0, .ok 2] ∧
      ¬ f.router.IsHealthy 1 ∧ ∀ r ∈ f.pickings c later, r.pick ≠ .ok 1 := by
  intro reach c start f later picks
  have hhealthy : ∀ r ∈ f.pickings c later, r.healthyIndices = [0, 2] := by
    have hall : (f.pickings c later).all fun r => r.healthyIndices == [0, 2] := by decide +kernel
    exact fun r hr => beq_iff_eq.mp (List.all_eq_true.mp hall r hr)
  have hwindow : ∀ r ∈ f.pickings c later, ∀ index, r.IsHealthy index ↔ index ∈ [0, 2] := by
    intro r hr index
    rw [← hhealthy r hr, Router.mem_healthyIndices]
  have hgone : ¬ f.router.IsHealthy 1 := by
    rw [← Router.mem_healthyIndices]
    decide +kernel
  obtain ⟨-, -, -, hround, hnever⟩ :=
    round_robin_run c () 3 {} rfl [.perform (.create {}), .perform (.create {})]
  exact ⟨rfl, by decide, hwindow, (hround later [0, 2] (by decide) nofun hwindow).1,
    by decide +kernel, hgone, hnever later 1 hgone⟩

end Front

end Turnwise
