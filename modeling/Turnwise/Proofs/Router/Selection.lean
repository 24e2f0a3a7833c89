import Mathlib.Data.List.Nodup
import Turnwise.Proofs.Router.Pinning

/-!
# Loads

A router keeps a number of sessions for each worker and picks workers by it. The number is that of
the pins that lead to the worker (`Router.Counted`): it goes up with every pin and down with every
pin that is removed, and nothing else touches either.

Most of what an operation does leaves the tables alone, up to the cursor and the counts
(`Router.SameTables`). This is so of failures as well, as long as no worker was found unreachable.
-/

namespace Turnwise.Router

variable {r r' : Router} {id : SessionId} {index : Nat}

/-! ### What leaves the tables alone -/

/-- Only the cursor and the counts have changed. -/
def SameTables (r r' : Router) : Prop := ∃ cursor tally, r' = { r with cursor, tally }

namespace SameTables

theorem refl (r : Router) : SameTables r r := ⟨r.cursor, r.tally, rfl⟩

theorem workers (h : SameTables r r') : r'.workers = r.workers := by
  obtain ⟨cursor, tally, rfl⟩ := h
  rfl

theorem pinned? (h : SameTables r r') (id : SessionId) : r'.pinned? id = r.pinned? id := by
  obtain ⟨cursor, tally, rfl⟩ := h
  rfl

end SameTables

theorem sameTables_selectWorker {choice : Except Error Nat} (h : r.selectWorker = (choice, r')) :
    SameTables r r' := by
  obtain ⟨cursor, -, rfl⟩ := exists_cursor_of_selectWorker h
  exact ⟨cursor, r.tally, rfl⟩

/-- A worker that was reached stays healthy. -/
theorem sameTables_markFailed (r : Router) (index : Nat) {e : Error}
    (he : ∀ detail, e ≠ .workerUnavailable detail) : SameTables r (r.markFailed index e) := by
  obtain ⟨failures, heq⟩ := r.exists_markFailed_eq index e
  have hreached : noteFailure r.workers index e = r.workers := by
    cases e with
    | workerUnavailable detail => exact absurd rfl (he detail)
    | _ => rfl
  rw [heq, hreached]
  exact ⟨r.cursor, _, rfl⟩

theorem sameTables_countUnknown (r : Router) : SameTables r r.countUnknown :=
  ⟨r.cursor, _, rfl⟩

/-! ### Counting pins -/

/-- The sessions that are pinned to a worker. -/
def pinnedTo (r : Router) (index : Nat) : List SessionId :=
  (r.pins.filter fun entry => entry.2 == index).map Prod.fst

theorem pinnedTo_pin (r : Router) (index index' : Nat) :
    (r.pin index).pinnedTo index' =
      if index = index' then ⟨r.nextSession⟩ :: r.pinnedTo index' else r.pinnedTo index' := by
  unfold pinnedTo pin
  rw [List.filter_cons]
  by_cases h : index = index'
  · rw [if_pos h, if_pos (beq_iff_eq.mpr h), List.map_cons]
  · rw [if_neg h, if_neg (by simpa using h)]

theorem pinnedTo_unpin (r : Router) (id : SessionId) (index index' : Nat) :
    (r.unpin id index).pinnedTo index' = (r.pinnedTo index').filter (· != id) := by
  unfold pinnedTo unpin
  rw [List.filter_map, List.filter_filter, List.filter_filter]
  congr 1
  exact List.filter_congr fun entry _ => Bool.and_comm ..

/-- Every session has one pin at most, and its id was minted; the number of sessions of each worker
is that of its pins. -/
structure Counted (r : Router) : Prop where
  nodup : (r.pins.map Prod.fst).Nodup
  minted : ∀ id ∈ r.pins.map Prod.fst, id.number < r.nextSession
  sessions : ∀ (index : Nat) (info : WorkerInfo), r.workers[index]? = some info →
    info.sessions = (r.pinnedTo index).length

namespace Counted

theorem ofWorkers (workers : List WorkerId) (config : Config) :
    (Router.ofWorkers workers config).Counted where
  nodup := .nil
  minted := nofun
  sessions index info hinfo := by
    obtain ⟨worker, -, rfl⟩ := List.mem_map.mp (List.mem_of_getElem? hinfo)
    rfl

theorem of_same (h : r.Counted) (hsame : SameTables r r') : r'.Counted := by
  obtain ⟨cursor, tally, rfl⟩ := hsame
  exact ⟨h.nodup, h.minted, h.sessions⟩

theorem nodup_pinnedTo (h : r.Counted) (index : Nat) : (r.pinnedTo index).Nodup :=
  h.nodup.sublist (List.filter_sublist.map Prod.fst)

theorem mem_pinnedTo (h : r.Counted) : id ∈ r.pinnedTo index ↔ r.pinned? id = some index := by
  rw [pinned?, List.lookup_eq_some_iff, pinnedTo, List.mem_map]
  constructor
  · rintro ⟨⟨id, index'⟩, hmem, rfl⟩
    obtain ⟨hpins, hindex⟩ := List.mem_filter.mp hmem
    obtain rfl : index' = index := beq_iff_eq.mp hindex
    obtain ⟨before, after, heq⟩ := List.append_of_mem hpins
    refine ⟨before, after, heq, fun entry hbefore => bne_iff_ne.mpr ?_⟩
    -- A second pin of the session would be a second entry with its name.
    have hnodup := h.nodup
    rw [heq, List.map_append, List.map_cons, List.nodup_middle, List.nodup_cons, List.mem_append,
      not_or] at hnodup
    intro hsame
    exact hnodup.1.1 (hsame ▸ List.mem_map_of_mem hbefore)
  · rintro ⟨before, after, heq, -⟩
    refine ⟨(id, index), List.mem_filter.mpr ⟨?_, beq_self_eq_true index⟩, rfl⟩
    rw [heq]
    exact List.mem_append_right before List.mem_cons_self

theorem lt_of_pinned? (h : r.Counted) (hpin : r.pinned? id = some index) :
    id.number < r.nextSession := by
  obtain ⟨entry, hmem, rfl⟩ := List.mem_map.mp (h.mem_pinnedTo.mpr hpin)
  exact h.minted _ (List.mem_map_of_mem (List.mem_filter.mp hmem).1)

/-- The next id is not pinned. -/
theorem not_pinned_next (h : r.Counted) (index : Nat) : r.pinned? ⟨r.nextSession⟩ ≠ some index :=
  fun hpin => Nat.lt_irrefl _ (h.lt_of_pinned? hpin)

theorem pin (h : r.Counted) (index : Nat) : (r.pin index).Counted where
  nodup := by
    refine List.nodup_cons.mpr ⟨fun hmem => ?_, h.nodup⟩
    exact Nat.lt_irrefl _ (h.minted _ hmem)
  minted id hmem := by
    rcases List.mem_cons.mp hmem with rfl | hmem
    · exact Nat.lt_succ_self _
    · exact Nat.lt_succ_of_lt (h.minted id hmem)
  sessions index' info hinfo := by
    change (r.workers.modify index _)[index']? = some info at hinfo
    rw [List.getElem?_modify] at hinfo
    obtain ⟨info', hinfo', rfl⟩ := Option.map_eq_some_iff.mp hinfo
    have hcount := h.sessions index' info' hinfo'
    rw [pinnedTo_pin]
    by_cases heq : index = index'
    · rw [if_pos heq, if_pos heq, List.length_cons, hcount]
    · rw [if_neg heq, if_neg heq, hcount]

theorem unpin (h : r.Counted) (hpin : r.pinned? id = some index) : (r.unpin id index).Counted where
  nodup := h.nodup.sublist (List.filter_sublist.map Prod.fst)
  minted id' hmem := h.minted id' ((List.filter_sublist.map Prod.fst).subset hmem)
  sessions index' info hinfo := by
    change (r.workers.modify index _)[index']? = some info at hinfo
    rw [List.getElem?_modify] at hinfo
    obtain ⟨info', hinfo', rfl⟩ := Option.map_eq_some_iff.mp hinfo
    have hcount := h.sessions index' info' hinfo'
    rw [pinnedTo_unpin, ← (h.nodup_pinnedTo index').erase_eq_filter]
    by_cases heq : index = index'
    · have hmem : id ∈ r.pinnedTo index' := h.mem_pinnedTo.mpr (heq ▸ hpin)
      rw [if_pos heq, List.length_erase_of_mem hmem, hcount]
    · have hmem : id ∉ r.pinnedTo index' := by
        intro hmem
        exact heq (Option.some.inj (hpin.symm.trans (h.mem_pinnedTo.mp hmem)))
      rw [if_neg heq, List.erase_of_not_mem hmem, hcount]

end Counted

/-! ### Health -/

/-- No worker was found unreachable. -/
def AllHealthy (r : Router) : Prop :=
  ∀ (index : Nat) (info : WorkerInfo), r.workers[index]? = some info → info.healthy = true

theorem allHealthy_ofWorkers (workers : List WorkerId) (config : Config) :
    (Router.ofWorkers workers config).AllHealthy := by
  intro index info hinfo
  obtain ⟨worker, -, rfl⟩ := List.mem_map.mp (List.mem_of_getElem? hinfo)
  rfl

theorem AllHealthy.modifyWorker (h : r.AllHealthy) (index : Nat) {f : WorkerInfo → WorkerInfo}
    (hf : ∀ info, (f info).healthy = info.healthy) : (r.modifyWorker index f).AllHealthy := by
  intro index' info hinfo
  change (r.workers.modify index f)[index']? = some info at hinfo
  rw [List.getElem?_modify] at hinfo
  obtain ⟨info', hinfo', rfl⟩ := Option.map_eq_some_iff.mp hinfo
  split_ifs
  · exact (hf info').trans (h index' info' hinfo')
  · exact h index' info' hinfo'

/-- Healthy workers are listed in the order of their indices. -/
theorem pairwise_healthyIndices (r : Router) : r.healthyIndices.Pairwise (· < ·) := by
  refine List.pairwise_map.mpr (List.Pairwise.filter _ (List.pairwise_map.mp ?_))
  rw [List.zipIdx_map_snd]
  exact List.pairwise_lt_range'

/-! ### The worker with the fewest sessions -/

/-- The loads of workers that can be reached are their numbers of sessions. -/
theorem isBelow_loadScore_iff {info info' : WorkerInfo} (h : info.healthy = true)
    (h' : info'.healthy = true) :
    info.loadScore.isBelow info'.loadScore = true ↔ info.sessions < info'.sessions := by
  rw [WorkerInfo.loadScore, if_pos h, WorkerInfo.loadScore, if_pos h']
  exact decide_eq_true_iff

/-- An entry that is preferred to another, or the same: it has fewer sessions, or it has as many and
comes first. -/
def Preferred (entry other : WorkerInfo × Nat) : Prop :=
  entry.1.sessions < other.1.sessions ∨
    entry.1.sessions = other.1.sessions ∧ entry.2 ≤ other.2

/-- Keeping the better of two, from the first to the last, ends with the best of all. -/
theorem preferred_foldl (first : WorkerInfo × Nat) (rest : List (WorkerInfo × Nat))
    (hhealthy : ∀ entry ∈ first :: rest, entry.1.healthy = true)
    (hsorted : (first :: rest).Pairwise (·.2 < ·.2)) :
    ∀ other ∈ first :: rest,
      Preferred (rest.foldl (fun best entry =>
        if entry.1.loadScore.isBelow best.1.loadScore then entry else best) first) other := by
  induction rest generalizing first with
  | nil =>
    intro other hmem
    rw [List.mem_singleton.mp hmem]
    exact .inr ⟨rfl, Nat.le_refl _⟩
  | cons entry rest ih =>
    obtain ⟨hfirst, hrest⟩ := List.pairwise_cons.mp hsorted
    obtain ⟨hentry, hlast⟩ := List.pairwise_cons.mp hrest
    have horder := hfirst entry List.mem_cons_self
    obtain ⟨hfirstHealthy, hrestHealthy⟩ := List.forall_mem_cons.mp hhealthy
    obtain ⟨hentryHealthy, hlastHealthy⟩ := List.forall_mem_cons.mp hrestHealthy
    intro other hmem
    rw [List.foldl_cons]
    split_ifs with hless <;> rw [isBelow_loadScore_iff hentryHealthy hfirstHealthy] at hless
    -- `entry` is lighter than `first`, so what it is preferred to includes all that `first` is.
    · have hbest := ih entry hrestHealthy hrest
      rcases List.mem_cons.mp hmem with rfl | hmem
      · have hself := hbest entry List.mem_cons_self
        unfold Preferred at hself ⊢
        omega
      · exact hbest other hmem
    -- `entry` is dropped. It is not lighter than `first` and comes after it.
    · have hsorted' : (first :: rest).Pairwise (·.2 < ·.2) :=
        List.pairwise_cons.mpr
          ⟨fun other hmem => hfirst other (List.mem_cons_of_mem entry hmem), hlast⟩
      have hbest := ih first (List.forall_mem_cons.mpr ⟨hfirstHealthy, hlastHealthy⟩) hsorted'
      have hself := hbest first List.mem_cons_self
      rcases List.mem_cons.mp hmem with rfl | hmem
      · exact hself
      · rcases List.mem_cons.mp hmem with rfl | hmem
        · unfold Preferred at hself ⊢
          omega
        · exact hbest other (List.mem_cons_of_mem first hmem)

/-- A healthy worker that has the fewest sessions of all, and fewer than those before it. -/
structure Lightest (r : Router) (index : Nat) (info : WorkerInfo) : Prop where
  found : r.workers[index]? = some info
  least : ∀ (other : Nat) (info' : WorkerInfo), r.workers[other]? = some info' →
    info'.healthy = true → info.sessions ≤ info'.sessions
  first : ∀ (other : Nat) (info' : WorkerInfo), r.workers[other]? = some info' →
    info'.healthy = true → other < index → info.sessions < info'.sessions

/-- **The worker with the fewest sessions**, the first of them on a tie, is the one that is
picked. -/
theorem lightest_of_leastLoaded? (h : r.leastLoaded? = some index) :
    ∃ info, r.Lightest index info := by
  unfold leastLoaded? at h
  dsimp only at h
  split at h
  · cases h
  · rename_i first rest hhealthy
    obtain rfl := Option.some.inj h
    -- The healthy workers are listed by their places, so the first of equals is the lowest.
    have hsorted : (first :: rest).Pairwise (·.2 < ·.2) := by
      rw [← hhealthy]
      exact List.pairwise_map.mp r.pairwise_healthyIndices
    have hall : ∀ entry ∈ first :: rest, entry.1.healthy = true := by
      intro entry hmem
      -- `Preferred` is `Lightest` for one other worker.
      rw [← hhealthy] at hmem
      exact (List.mem_filter.mp hmem).2
    have hbest := preferred_foldl first rest hall hsorted
    have hmem :=
      foldl_best_mem (fun entry best => entry.1.loadScore.isBelow best.1.loadScore) first rest
    set best := rest.foldl (fun best entry =>
      if entry.1.loadScore.isBelow best.1.loadScore then entry else best) first
    have hentry : ∀ (other : Nat) (info' : WorkerInfo), r.workers[other]? = some info' →
        info'.healthy = true → best.1.sessions < info'.sessions ∨
          best.1.sessions = info'.sessions ∧ best.2 ≤ other := by
      intro other info' hinfo' hhealthy'
      refine hbest (info', other) ?_
      rw [← hhealthy]
      exact List.mem_filter.mpr ⟨List.mem_zipIdx_iff_getElem?.mpr hinfo', hhealthy'⟩
    rw [← hhealthy] at hmem
    refine ⟨best.1, List.mem_zipIdx_iff_getElem?.mp (List.mem_filter.mp hmem).1, ?_, ?_⟩
    · intro other info' hinfo' hhealthy'
      have hpreferred := hentry other info' hinfo' hhealthy'
      omega
    · intro other info' hinfo' hhealthy' hbefore
      have hpreferred := hentry other info' hinfo' hhealthy'
      omega

theorem lightest_of_selectWorker (hpolicy : r.selection = .leastLoaded)
    (h : r.selectWorker = (.ok index, r')) : ∃ info, r.Lightest index info := by
  unfold selectWorker at h
  rw [hpolicy] at h
  dsimp only at h
  split at h
  · rename_i index' hleast
    obtain ⟨heq, -⟩ := Prod.mk.inj h
    exact Except.ok.inj heq ▸ lightest_of_leastLoaded? hleast
  · exact nomatch (Prod.mk.inj h).1

end Turnwise.Router
