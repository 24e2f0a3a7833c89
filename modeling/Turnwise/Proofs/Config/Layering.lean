import Turnwise.Config.Layers
import Mathlib.Tactic.Common

/-!
# What a layer makes of an entry

A source lays its entries over a table one after the other, each under a name that may be spelled in
several ways. An entry of the table is changed by the entries of the source that spell its name and
by no other one (`entry?_overlay`, `entry?_assignAll`), and so it is enough to look at the one entry
of a source that bears the name, if no other one spells it.
-/

namespace Turnwise.Setting

/-! ### Putting entries into a table -/

section Lookup

variable {α : Type} {entries : List (String × α)} {name : String}

theorem lookup_cons_eq (key : String) (value : α) (entries : List (String × α)) (name : String) :
    ((key, value) :: entries).lookup name =
      if name = key then some value else entries.lookup name := by
  rw [List.lookup_cons]
  by_cases h : name = key
  · simp [h]
  · simp [h, beq_false_of_ne h]

theorem lookup_of_notMem (h : name ∉ entries.map Prod.fst) : entries.lookup name = none := by
  rw [List.lookup_eq_none_iff]
  intro entry hmem
  have hne : name ≠ entry.1 := fun heq => h (heq ▸ List.mem_map_of_mem hmem)
  simp [hne]

theorem mem_of_lookup {value : α} (h : entries.lookup name = some value) :
    (name, value) ∈ entries := by
  obtain ⟨before, after, rfl, -⟩ := List.lookup_eq_some_iff.mp h
  simp

theorem lookup_replace (entries : List (String × α)) (name other : String) (value : α) :
    (entries.map fun entry => if entry.1 == name then (name, value) else entry).lookup other =
      if other = name then (entries.lookup name).map fun _ => value else entries.lookup other := by
  induction entries with
  | nil => simp
  | cons entry entries ih =>
    obtain ⟨key, old⟩ := entry
    rw [List.map_cons, lookup_cons_eq key old entries name, lookup_cons_eq key old entries other]
    by_cases hkey : key = name
    · subst hkey
      simp only [beq_self_eq_true, if_true, lookup_cons_eq, ih]
      split_ifs <;> rfl
    · simp only [beq_false_of_ne hkey, Bool.false_eq_true, if_false, lookup_cons_eq, ih,
        if_neg (Ne.symm hkey)]
      by_cases hother : other = name
      · simp [hother, Ne.symm hkey]
      · simp [hother]

end Lookup

@[simp] theorem entry?_table (entries : List (String × Setting)) (name : String) :
    entry? name (table entries) = entries.lookup name := rfl

@[simp] theorem entry?_put (target : Setting) (name other : String) (value : Setting) :
    entry? other (target.put name value) =
      if other = name then some value else target.entry? other := by
  unfold put
  split
  · next entries =>
    split
    · next hsome =>
      obtain ⟨old, hold⟩ := Option.isSome_iff_exists.mp hsome
      rw [entry?_table, lookup_replace, hold]
      rfl
    · next hnone =>
      have hlookup : entries.lookup name = none := by
        rwa [Bool.not_eq_true, Option.isSome_eq_false_iff, Option.isNone_iff_eq_none] at hnone
      by_cases hother : other = name
      · simp [List.lookup_append, hother, hlookup]
      · simp [List.lookup_append, lookup_cons_eq, hother]
  · simp [ entry?, lookup_cons_eq]

def IsTable (setting : Setting) : Prop := ∃ entries, setting = table entries

theorem isTable_put (target : Setting) (name : String) (value : Setting) :
    (target.put name value).IsTable := by
  unfold put
  split
  · split
    · exact ⟨_, rfl⟩
    · exact ⟨_, rfl⟩
  · exact ⟨_, rfl⟩

/-- What a value makes of the entry that it is laid over: a table adds its entries, anything else
replaces it. -/
def laidOver (value base : Setting) : Setting :=
  match value with
  | table entries => base.assignAll entries
  | value => value

theorem assign_eq (target : Setting) (name : String) (value : Setting) :
    target.assign name value =
      target.put (lowerName name) (value.laidOver (target.child (lowerName name))) := by
  cases value <;> rfl

theorem entry?_assign (target : Setting) (name other : String) (value : Setting) :
    entry? other (target.assign name value) =
      if other = lowerName name then some (value.laidOver (target.child other))
      else target.entry? other := by
  rw [assign_eq, entry?_put]
  split
  · next heq => rw [heq]
  · rfl

/-! ### Paths -/

/-- The entry that a path starts with. -/
def headName (name : String) : String :=
  match pathOf name with
  | .entry first :: _ => lowerName first
  | _ => lowerName name

theorem pathOf_eq_cons (name : String) : ∃ first path, pathOf name = .entry first :: path := by
  unfold pathOf
  simp only
  split
  · split
    · exact ⟨_, _, rfl⟩
    · exact ⟨_, _, rfl⟩
  · exact ⟨_, _, rfl⟩

theorem eq_put_of_changeAt? {change : Setting → Setting} {first : String} {path : List Step}
    {target result : Setting} (h : changeAt? change (.entry first :: path) target = some result) :
    ∃ changed, result = target.put (lowerName first) changed := by
  have hput {reached? : Option Setting} {target : Setting}
      (h : (reached?.bind fun reached => (changeAt? change path reached).bind fun changed =>
        some (target.put (lowerName first) changed)) = some result) :
      ∃ changed, result = target.put (lowerName first) changed := by
    simp only [Option.bind_eq_some_iff, Option.some.injEq] at h
    obtain ⟨reached, -, changed, -, rfl⟩ := h
    exact ⟨changed, rfl⟩
  unfold changeAt? at h
  simp only [Option.bind_eq_bind] at h
  split at h <;> exact hput h

/-- A path changes the entry that it starts with, if it changes anything. -/
theorem assignAt_cases (target : Setting) (name : String) (value : Setting) :
    target.assignAt value (pathOf name) = target ∨
      ∃ changed, target.assignAt value (pathOf name) = target.put (headName name) changed := by
  obtain ⟨first, path, hpath⟩ := pathOf_eq_cons name
  have hhead : headName name = lowerName first := by simp [headName, hpath]
  rw [hpath, hhead]
  unfold assignAt
  simp only
  cases path with
  | nil => exact .inr ⟨_, assign_eq target first value⟩
  | cons step path =>
    rw [List.dropLast_cons_cons]
    cases hresult : changeAt? _ (.entry first :: (step :: path).dropLast) target with
    | none => exact .inl rfl
    | some result => exact .inr (eq_put_of_changeAt? hresult)

theorem entry?_assignAt (target : Setting) (name other : String) (value : Setting)
    (hother : other ≠ headName name) :
    entry? other (target.assignAt value (pathOf name)) = target.entry? other := by
  obtain heq | ⟨changed, heq⟩ := assignAt_cases target name value
  · rw [heq]
  · rw [heq, entry?_put, if_neg hother]

theorem isTable_assignAt {target : Setting} (name : String) (value : Setting)
    (h : target.IsTable) : (target.assignAt value (pathOf name)).IsTable := by
  obtain heq | ⟨changed, heq⟩ := assignAt_cases target name value
  · rwa [heq]
  · rw [heq]
    exact isTable_put target _ changed

/-- A name that spells only itself is no path. -/
theorem assignAt_of_pathOf {name : String} (h : pathOf name = [.entry name])
    (target value : Setting) : target.assignAt value (pathOf name) = target.assign name value := by
  rw [h]
  rfl

/-! ### Layers -/

section Layers

variable (lay : Setting → String → Setting → Setting) {spelled : String → String} {name : String}

/-- What a source makes of the entry under a name that it spells in one way at most: it lays its own
entry over it, if it has one. -/
theorem entry?_foldl
    (hself : ∀ target value,
      entry? name (lay target name value) = some (value.laidOver (target.child name)))
    (hother : ∀ target other value, name ≠ spelled other →
      entry? name (lay target other value) = target.entry? name)
    (entries : List (String × Setting)) (target : Setting)
    (hnodup : (entries.map Prod.fst).Nodup)
    (hspelled : ∀ entry ∈ entries, entry.1 ≠ name → name ≠ spelled entry.1) :
    entry? name (entries.foldl (fun target entry => lay target entry.1 entry.2) target) =
      ((entries.lookup name).map (·.laidOver (target.child name))).or (target.entry? name) := by
  induction entries generalizing target with
  | nil => simp
  | cons entry entries ih =>
    obtain ⟨key, value⟩ := entry
    simp only [List.map_cons, List.nodup_cons] at hnodup
    obtain ⟨hkey, hnodup⟩ := hnodup
    have hrest := fun target => ih target hnodup fun entry hmem => hspelled entry (by simp [hmem])
    rw [List.foldl_cons, hrest]
    by_cases heq : key = name
    · subst heq
      simp [lookup_of_notMem hkey, hself]
    · have hentry := hother target key value (hspelled (key, value) (by simp) heq)
      have hchild : (lay target key value).child name = target.child name := by
        simp [child, hentry]
      simp [hentry, hchild, lookup_cons_eq, Ne.symm heq]

theorem isTable_foldl (hlay : ∀ target name value, target.IsTable → (lay target name value).IsTable)
    (entries : List (String × Setting)) {target : Setting} (h : target.IsTable) :
    (entries.foldl (fun target entry => lay target entry.1 entry.2) target).IsTable := by
  induction entries generalizing target with
  | nil => exact h
  | cons entry entries ih => exact ih (hlay target entry.1 entry.2 h)

end Layers

theorem assignAll_eq_foldl (target : Setting) (entries : List (String × Setting)) :
    target.assignAll entries =
      entries.foldl (fun target entry => target.assign entry.1 entry.2) target := by
  induction entries generalizing target with
  | nil => rfl
  | cons entry entries ih => rw [assignAll, ih, List.foldl_cons]

theorem isTable_assign (target : Setting) (name : String) (value : Setting) :
    (target.assign name value).IsTable := by
  rw [assign_eq]
  exact isTable_put _ _ _

theorem isTable_assignAll (entries : List (String × Setting)) {target : Setting}
    (h : target.IsTable) : (target.assignAll entries).IsTable := by
  rw [assignAll_eq_foldl]
  exact isTable_foldl assign (fun target name value _ => isTable_assign target name value) entries h

theorem isTable_overlay (source : List (String × Setting)) {target : Setting}
    (h : target.IsTable) : (target.overlay source).IsTable := by
  exact isTable_foldl (fun target name value => target.assignAt value (pathOf name))
    (fun target name value h => isTable_assignAt name value h) source h

/-- What a table makes of an entry of the table that it is laid over. -/
theorem entry?_assignAll {name : String} (hlower : lowerName name = name)
    (entries : List (String × Setting)) (target : Setting)
    (hnodup : (entries.map Prod.fst).Nodup)
    (hspelled : ∀ entry ∈ entries, entry.1 ≠ name → name ≠ lowerName entry.1) :
    entry? name (target.assignAll entries) =
      ((entries.lookup name).map (·.laidOver (target.child name))).or (target.entry? name) := by
  rw [assignAll_eq_foldl]
  refine entry?_foldl assign (fun target value => ?_) (fun target other value h => ?_) entries
    target hnodup hspelled
  · rw [entry?_assign, hlower, if_pos rfl]
  · rw [entry?_assign, if_neg h]

/-- What a source makes of an entry of the table that it is laid over. -/
theorem entry?_overlay {name : String} (hlower : lowerName name = name)
    (hpath : pathOf name = [.entry name]) (source : List (String × Setting)) (target : Setting)
    (hnodup : (source.map Prod.fst).Nodup)
    (hspelled : ∀ entry ∈ source, entry.1 ≠ name → name ≠ headName entry.1) :
    entry? name (target.overlay source) =
      ((source.lookup name).map (·.laidOver (target.child name))).or (target.entry? name) := by
  refine entry?_foldl (fun target name value => target.assignAt value (pathOf name))
    (fun target value => ?_) (fun target other value h => ?_) source target hnodup hspelled
  · rw [assignAt_of_pathOf hpath, entry?_assign, hlower, if_pos rfl]
  · exact entry?_assignAt target other name value h

end Turnwise.Setting
