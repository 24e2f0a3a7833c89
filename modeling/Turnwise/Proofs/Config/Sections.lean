import Turnwise.Proofs.Config.Layering
import Turnwise.Proofs.Config.Scalars

/-!
# Sections under both readings of a configuration

A section is a mapping of names to fields. Read strictly, it is a list of names and nodes, in which
every known field is looked up; read without knowledge of the fields, it is a table that is laid
over the one with the defaults.

`isSection` says what a section must keep to for the two readings to see the same fields, and
`Laid.pick?_eq` is the result for one field: if its two readings agree, then so do those of the
section's entry for it, whether it is there or not.
-/

namespace Turnwise

open Yaml (Node Value Document Tag ScalarStyle)

/-! ### Trees of both revisions -/

namespace Yaml.Node

mutual

/-- Whether a tree of the older revision and one of the newer revision are the same. They differ
only in the sign for a node that is left out. -/
def corresponds : Node → Node → Bool
  | scalar none .plain [], scalar none .plain ['~'] => true
  | scalar tag style content, scalar tag' style' content' =>
    tag == tag' && style == style' && content == content'
  | sequence items, sequence items' => allCorrespond items items'
  | mapping pairs, mapping pairs' => pairsCorrespond pairs pairs'
  | enclosing anchor, enclosing anchor' => anchor == anchor'
  | _, _ => false

/-- Whether the nodes of two lists are the same. -/
def allCorrespond : List Node → List Node → Bool
  | [], [] => true
  | node :: rest, node' :: rest' => corresponds node node' && allCorrespond rest rest'
  | _, _ => false

/-- Whether the keys and values of two lists are the same. -/
def pairsCorrespond : List (Node × Node) → List (Node × Node) → Bool
  | [], [] => true
  | (key, value) :: rest, (key', value') :: rest' =>
    corresponds key key' && corresponds value value' && pairsCorrespond rest rest'
  | _, _ => false

end

/-- A scalar corresponds to itself, and the sign for a node that is left out to such a node. -/
theorem corresponds_scalar {older : Node} {tag : Option Tag} {style : ScalarStyle}
    {content : List Char} (h : corresponds older (scalar tag style content) = true) :
    older = scalar tag style content ∨
      older = omitted .v11 ∧ scalar tag style content = omitted .v12 := by
  unfold corresponds at h
  split at h
  · next homitted =>
    cases homitted
    exact .inr ⟨rfl, rfl⟩
  · next hscalar =>
    cases hscalar
    simp only [Bool.and_eq_true, beq_iff_eq] at h
    obtain ⟨⟨rfl, rfl⟩, rfl⟩ := h
    exact .inl rfl
  all_goals simp_all

/-- A scalar that does not denote the absence of a value corresponds to itself only. -/
theorem eq_of_corresponds_scalar {older : Node} {tag : Option Tag} {style : ScalarStyle}
    {content : List Char} (h : corresponds older (scalar tag style content) = true)
    (hvalue : Value.ofScalar tag style content ≠ .null) : older = scalar tag style content := by
  obtain heq | ⟨-, homitted⟩ := corresponds_scalar h
  · exact heq
  · cases homitted
    exact absurd rfl hvalue

theorem exists_of_corresponds_mapping {older : Node} {pairs : List (Node × Node)}
    (h : corresponds older (mapping pairs) = true) :
    ∃ olderPairs, older = mapping olderPairs ∧ pairsCorrespond olderPairs pairs = true := by
  unfold corresponds at h
  split at h
  · next hmapping => cases hmapping
  · next hmapping => cases hmapping
  · next hmapping => cases hmapping
  · next olderPairs _ hmapping =>
    cases hmapping
    exact ⟨olderPairs, rfl, h⟩
  · next hmapping => cases hmapping
  · cases h

/-- The name that a key spells, if it is a text. -/
def name? : Node → Option String
  | scalar tag style content => match Value.ofScalar tag style content with
    | .text name => some (String.ofList name)
    | _ => none
  | _ => none

/-- The entries of a mapping whose keys are texts. -/
def entries? : List (Node × Node) → Option (List (String × Node))
  | [] => some []
  | (key, value) :: rest => do
    let name ← key.name?
    some ((name, value) :: (← entries? rest))

theorem name?_eq_some {key : Node} {name : String} (h : key.name? = some name) :
    ∃ tag style, key = scalar tag style name.toList ∧
      Value.ofScalar tag style name.toList = .text name.toList := by
  unfold name? at h
  split at h
  · next tag style content =>
    split at h
    · next text hvalue =>
      have hcontent : text = content := by
        have hdenotes := denotes_ofScalar tag style content
        rw [hvalue] at hdenotes
        cases hdenotes
        rfl
      cases h
      subst hcontent
      exact ⟨tag, style, by simp, by simpa using hvalue⟩
    · cases h
  · cases h

end Yaml.Node

/-! ### Entries in files -/

namespace Setting

/-- The value of a node of a configuration file. -/
def ofNode? (node : Node) : Option Setting := (Value.ofNode? node).bind ofValue?

/-- The entries with their values; what has no value counts as absent. -/
def ofEntries (entries : List (String × Node)) : List (String × Setting) :=
  entries.map fun entry => (entry.1, (ofNode? entry.2).getD absent)

theorem lookup_ofEntries (entries : List (String × Node)) (name : String) :
    (ofEntries entries).lookup name =
      (entries.lookup name).map fun node => (ofNode? node).getD absent := by
  induction entries with
  | nil => rfl
  | cons entry entries ih =>
    obtain ⟨key, node⟩ := entry
    change List.lookup name ((key, _) :: ofEntries entries) = _
    rw [lookup_cons_eq, lookup_cons_eq, ih]
    split <;> rfl

theorem map_fst_ofEntries (entries : List (String × Node)) :
    (ofEntries entries).map Prod.fst = entries.map Prod.fst := by
  simp [ofEntries, Function.comp_def]

theorem put_table_of_notMem {entries : List (String × Setting)} {name : String}
    (h : name ∉ entries.map Prod.fst) (value : Setting) :
    (table entries).put name value = table (entries ++ [(name, value)]) := by
  simp [put, lookup_of_notMem h]

/-- The pairs of a mapping are paired up again and added to a table in their order. The induction
runs over the pairs; `seen` and `before` are the keys and the entries in front of them. -/
theorem ofPairs?_pairUp? {pairs : List (Node × Node)} {entries : List (String × Node)}
    (hentries : Node.entries? pairs = some entries)
    (hlegible : ∀ entry ∈ entries, (ofNode? entry.2).isSome)
    (seen : List Value) (before : List (String × Setting))
    (hseen : ∀ key ∈ seen, ∃ entry ∈ before, key = .text entry.1.toList)
    (hnodup : (before.map Prod.fst ++ entries.map Prod.fst).Nodup) :
    ∃ values paired, Value.ofPairs? pairs = some values ∧
      Value.pairUp? seen values = some paired ∧
      ofPairs? (table before) paired = some (table (before ++ ofEntries entries)) := by
  induction pairs generalizing entries seen before with
  | nil =>
    cases hentries
    exact ⟨[], [], rfl, rfl, by simp [ofPairs?, ofEntries]⟩
  | cons pair pairs ih =>
    obtain ⟨key, node⟩ := pair
    simp only [Node.entries?, Option.bind_eq_bind, Option.bind_eq_some_iff] at hentries
    obtain ⟨name, hname, rest, hrest, hentries⟩ := hentries
    cases hentries
    obtain ⟨tag, style, rfl, hkey⟩ := Node.name?_eq_some hname
    obtain ⟨setting, hsetting⟩ :=
      Option.isSome_iff_exists.mp (hlegible (name, node) List.mem_cons_self)
    obtain ⟨value, hvalue, hsetting'⟩ := Option.bind_eq_some_iff.mp hsetting
    have hfresh : name ∉ before.map Prod.fst := by
      intro hmem
      exact (List.nodup_append.mp hnodup).2.2 name hmem name (by simp) rfl
    -- The key joins those that have been seen, and the entry those that are in the table.
    have hseen' : ∀ key ∈ .text name.toList :: seen, ∃ entry ∈ before ++ [(name, setting)],
        key = .text entry.1.toList := by
      intro key hmem
      obtain rfl | hmem := List.mem_cons.mp hmem
      · exact ⟨(name, setting), by simp, rfl⟩
      · obtain ⟨entry, hentry, hkey⟩ := hseen key hmem
        exact ⟨entry, by simp [hentry], hkey⟩
    have hnodup' : ((before ++ [(name, setting)]).map Prod.fst ++ rest.map Prod.fst).Nodup := by
      simpa using hnodup
    have hlegible' : ∀ entry ∈ rest, (ofNode? entry.2).isSome :=
      fun entry hmem => hlegible entry (List.mem_cons_of_mem _ hmem)
    -- The rest of the pairs is added to the longer table.
    obtain ⟨values, paired, hvalues, hpaired, htable⟩ := ih hrest hlegible' _ _ hseen' hnodup'
    refine ⟨.text name.toList :: value :: values, (.text name.toList, value) :: paired, ?_, ?_, ?_⟩
    · simp [Value.ofPairs?, Value.ofNode?, hkey, hvalue, hvalues]
    · -- The keys in front are texts as well, so they are compared as names.
      have hnew : seen.any (Value.isSame (.text name.toList)) = false := by
        rw [List.any_eq_false]
        intro key hmem
        obtain ⟨entry, hentry, rfl⟩ := hseen key hmem
        have hne : name ≠ entry.1 := fun heq => hfresh (heq ▸ List.mem_map_of_mem hentry)
        simpa [Value.isSame, String.toList_inj] using hne
      simp [Value.pairUp?, hnew, hpaired]
    · have hname : keyName? (.text name.toList) = some name := by simp [keyName?]
      simp [ofPairs?, hname, hsetting', put_table_of_notMem hfresh, htable, ofEntries, hsetting]

/-- A mapping with different texts for keys is a table of its entries, in their order. -/
theorem ofNode?_mapping {pairs : List (Node × Node)} {entries : List (String × Node)}
    (hentries : Node.entries? pairs = some entries)
    (hlegible : ∀ entry ∈ entries, (ofNode? entry.2).isSome)
    (hnodup : (entries.map Prod.fst).Nodup) :
    ofNode? (.mapping pairs) = some (table (ofEntries entries)) := by
  obtain ⟨values, paired, hvalues, hpaired, htable⟩ :=
    ofPairs?_pairUp? hentries hlegible [] [] (by simp) (by simpa using hnodup)
  simp [ofNode?, Value.ofNode?, ofValue?, hvalues, hpaired, htable]

end Setting

/-! ### Sections -/

/-- The fields that a section knows, each with a test of what is written there. -/
abbrev KnownFields := List (String × (Node → Bool))

/-- What the entries of a section must keep to, if names are spelled for each other as `spelled`
says: no name is there twice, every value can be read, a known field passes its test, and no other
name spells a known one. -/
structure Keeps (spelled : String → String) (known : KnownFields)
    (entries : List (String × Node)) : Prop where
  nodup : (entries.map Prod.fst).Nodup
  legible : ∀ entry ∈ entries, (Setting.ofNode? entry.2).isSome
  admitted : ∀ entry ∈ entries, ∀ admits, known.lookup entry.1 = some admits → admits entry.2 = true
  foreign : ∀ entry ∈ entries, known.lookup entry.1 = none →
    ∀ field ∈ known, field.1 ≠ spelled entry.1

/-- Whether a node is a mapping that keeps to the rules of a section. -/
def isSection (spelled : String → String) (known : KnownFields) : Node → Bool
  | .mapping pairs => match Node.entries? pairs with
    | some entries =>
      decide (entries.map Prod.fst).Nodup && entries.all fun (name, value) =>
        (Setting.ofNode? value).isSome && match known.lookup name with
          | some admits => admits value
          | none => known.all fun field => field.1 != spelled name
    | none => false
  | _ => false

theorem exists_of_isSection {spelled : String → String} {known : KnownFields} {node : Node}
    (h : isSection spelled known node = true) :
    ∃ pairs entries, node = .mapping pairs ∧ Node.entries? pairs = some entries ∧
      Keeps spelled known entries := by
  unfold isSection at h
  split at h
  · next pairs =>
    split at h
    · next entries hentries =>
      simp only [Bool.and_eq_true, decide_eq_true_eq, List.all_eq_true] at h
      obtain ⟨hnodup, hall⟩ := h
      refine ⟨pairs, entries, rfl, hentries, hnodup, fun entry hmem => (hall entry hmem).1, ?_, ?_⟩
      · intro entry hmem admits hknown
        simpa [hknown] using (hall entry hmem).2
      · intro entry hmem hknown field hfield
        have hfields := (hall entry hmem).2
        simp only [hknown, List.all_eq_true, bne_iff_ne] at hfields
        exact hfields field hfield
    · cases h
  · cases h

/-- A field of the strict reading and the entry for it in the file. -/
def SameField (field : List Char × Node) (entry : String × Node) : Prop :=
  field.1 = entry.1.toList ∧ field.2.corresponds entry.2 = true

/-- The strict reading finds the same fields in the same order. -/
theorem forall₂_sameField {document : Document} {older : Node} {pairs : List (Node × Node)}
    {entries : List (String × Node)} {fields : List (List Char × Node)}
    (hcorresponds : older.corresponds (.mapping pairs) = true)
    (hentries : Node.entries? pairs = some entries)
    (hfields : older.fields? document = some fields) :
    List.Forall₂ SameField fields entries := by
  obtain ⟨olderPairs, rfl, hpairs⟩ := Node.exists_of_corresponds_mapping hcorresponds
  simp only [Node.fields?, Document.follow] at hfields
  clear hcorresponds
  induction olderPairs generalizing pairs entries fields with
  | nil =>
    cases pairs with
    | nil =>
      cases hentries
      cases hfields
      exact .nil
    | cons pair pairs => cases hpairs
  | cons olderPair olderPairs ih =>
    cases pairs with
    | nil => cases hpairs
    | cons pair pairs =>
      obtain ⟨key, value⟩ := pair
      obtain ⟨olderKey, olderValue⟩ := olderPair
      simp only [Node.pairsCorrespond, Bool.and_eq_true] at hpairs
      obtain ⟨⟨hkey, hvalue⟩, hpairs⟩ := hpairs
      simp only [Node.entries?, Option.bind_eq_bind, Option.bind_eq_some_iff] at hentries
      obtain ⟨name, hname, rest, hrest, hentries⟩ := hentries
      cases hentries
      obtain ⟨tag, style, rfl, htext⟩ := Node.name?_eq_some hname
      -- A key that is a text is no omitted one, so it is the same key for both readings.
      obtain rfl := Node.eq_of_corresponds_scalar hkey (by simp [htext])
      simp only [List.mapM_cons, Option.bind_eq_bind, Option.bind_eq_some_iff] at hfields
      obtain ⟨field, hfield, others, hothers, hfields⟩ := hfields
      cases hfield
      cases hfields
      exact .cons ⟨rfl, hvalue⟩ (ih hrest hpairs hothers)

/-- The fields of a name are there just if the entry is, and the first one is its node. -/
theorem lookup_filter_of_same {fields : List (List Char × Node)} {entries : List (String × Node)}
    (hsame : List.Forall₂ SameField fields entries) (name : String) :
    (entries.lookup name = none ∧ fields.filter (·.1 == name.toList) = []) ∨
      ∃ older newer rest, entries.lookup name = some newer ∧ older.corresponds newer = true ∧
        fields.filter (·.1 == name.toList) = (name.toList, older) :: rest := by
  induction hsame with
  | nil => exact .inl ⟨rfl, rfl⟩
  | @cons field entry fields entries hhead _ ih =>
    obtain ⟨field, older⟩ := field
    obtain ⟨key, newer⟩ := entry
    obtain ⟨rfl, hcorresponds⟩ := hhead
    by_cases heq : name = key
    · subst heq
      exact .inr ⟨older, newer, fields.filter (·.1 == name.toList), by simp, hcorresponds, by simp⟩
    · have hne : (key.toList == name.toList) = false := by
        simpa [String.toList_inj] using Ne.symm heq
      rwa [Setting.lookup_cons_eq, if_neg heq, List.filter_cons_of_neg (by simp [hne])]

/-- What a field that is read strictly comes from: nothing, or the node in the place of the
entry. -/
theorem readField?_cases {α : Type} {fields : List (List Char × Node)}
    {entries : List (String × Node)} (hsame : List.Forall₂ SameField fields entries) {name : String}
    {default value : α} {read : Node → Option α}
    (h : readField? fields name default read = some value) :
    entries.lookup name = none ∧ value = default ∨
      ∃ older newer, entries.lookup name = some newer ∧ older.corresponds newer = true ∧
        read older = some value := by
  unfold readField? at h
  obtain ⟨hlookup, hfilter⟩ | ⟨older, newer, rest, hlookup, hcorresponds, hfilter⟩ :=
    lookup_filter_of_same hsame name
  · rw [hfilter] at h
    exact .inl ⟨hlookup, (Option.some.inj h).symm⟩
  · rw [hfilter] at h
    cases rest with
    | nil => exact .inr ⟨older, newer, hlookup, hcorresponds, h⟩
    | cons _ _ => cases h

/-! ### Fields -/

/-- Two readings of a field agree on every node that passes the field's test: what the strict one
yields, the other one makes of the node's value laid over the default. -/
def ReadsAlike {α : Type} (admits : Node → Bool) (read : Node → Option α)
    (read' : Setting → Option α) (default : Setting) : Prop :=
  ∀ older newer setting value, older.corresponds newer = true → admits newer = true →
    Setting.ofNode? newer = some setting → read older = some value →
    read' (setting.laidOver default) = some value

/-- A section as both readings have it: the fields of one, and the table `laid` that the entries
make of the table `base` with the defaults. -/
structure Laid (spelled : String → String) (known : KnownFields) (base laid : Setting)
    (fields : List (List Char × Node)) (entries : List (String × Node)) : Prop
    extends Keeps spelled known entries where
  same : List.Forall₂ SameField fields entries
  entry? : ∀ name, (known.lookup name).isSome → laid.entry? name =
    (((Setting.ofEntries entries).lookup name).map (·.laidOver (base.child name))).or
      (base.entry? name)
  isTable : laid.IsTable

section Laid

variable {spelled : String → String} {known : KnownFields} {base laid : Setting}
  {fields : List (List Char × Node)} {entries : List (String × Node)}

theorem Laid.field? (h : Laid spelled known base laid fields entries) :
    laid.field? = some fun name _ => laid.entry? name := by
  obtain ⟨entries, rfl⟩ := h.isTable
  rfl

/-- A field whose two readings agree is read alike, whether it is there or not. -/
theorem Laid.pick?_eq {α : Type} (h : Laid spelled known base laid fields entries)
    {name : String} {position : Nat} {admits : Node → Bool}
    (hknown : known.lookup name = some admits) {read : Node → Option α}
    {read' : Setting → Option α} {default value : α} {setting : Setting}
    (halike : ReadsAlike admits read read' setting)
    (hread : readField? fields name default read = some value)
    (hbase : base.entry? name = some setting) (hdefault : read' setting = some default) :
    Config.pick? (fun name _ => laid.entry? name) name position default read' = some value := by
  have hchild : base.child name = setting := by simp [Setting.child, hbase]
  have hentry := h.entry? name (by simp [hknown])
  unfold Config.pick?
  obtain ⟨hlookup, rfl⟩ | ⟨older, newer, hlookup, hcorresponds, hvalue⟩ :=
    readField?_cases h.same hread
  · simp [hentry, Setting.lookup_ofEntries, hlookup, hbase, hdefault]
  · have hmem := Setting.mem_of_lookup hlookup
    obtain ⟨given, hgiven⟩ := Option.isSome_iff_exists.mp (h.legible _ hmem)
    have hadmits := h.admitted _ hmem admits hknown
    simpa [hentry, Setting.lookup_ofEntries, hlookup, hgiven, hchild] using
      halike older newer given value hcorresponds hadmits hgiven hvalue

end Laid

/-! ### Laying a section over its defaults -/

section Laying

variable {spelled : String → String} {known : KnownFields} {entries : List (String × Node)}

theorem Keeps.nodup_ofEntries (h : Keeps spelled known entries) :
    ((Setting.ofEntries entries).map Prod.fst).Nodup := by
  rw [Setting.map_fst_ofEntries]
  exact h.nodup

/-- A name that is spelled for itself is spelled by no other entry of a section that knows it. -/
theorem Keeps.ne_spelled (h : Keeps spelled known entries)
    (hspelled : ∀ field ∈ known, spelled field.1 = field.1) {name : String}
    (hname : (known.lookup name).isSome) :
    ∀ entry ∈ Setting.ofEntries entries, entry.1 ≠ name → name ≠ spelled entry.1 := by
  intro entry hentry hne
  obtain ⟨⟨key, node⟩, hnode, rfl⟩ := List.mem_map.mp hentry
  obtain ⟨admits, hadmits⟩ := Option.isSome_iff_exists.mp hname
  cases hkey : known.lookup key with
  | none => exact h.foreign _ hnode hkey _ (Setting.mem_of_lookup hadmits)
  | some admits' =>
    rw [hspelled _ (Setting.mem_of_lookup hkey)]
    exact Ne.symm hne

variable {document : Document} {older newer : Node} {fields : List (List Char × Node)}

theorem exists_entries_of_isSection (hcorresponds : older.corresponds newer = true)
    (hsection : isSection spelled known newer = true)
    (hfields : older.fields? document = some fields) :
    ∃ entries, List.Forall₂ SameField fields entries ∧ Keeps spelled known entries ∧
      Setting.ofNode? newer = some (.table (Setting.ofEntries entries)) := by
  obtain ⟨pairs, entries, rfl, hentries, hkeeps⟩ := exists_of_isSection hsection
  exact ⟨entries, forall₂_sameField hcorresponds hentries hfields, hkeeps,
    Setting.ofNode?_mapping hentries hkeeps.legible hkeeps.nodup⟩

/-- A section, laid over the table with its defaults. -/
theorem exists_laid_section (hlower : ∀ field ∈ known, lowerName field.1 = field.1)
    (hcorresponds : older.corresponds newer = true)
    (hsection : isSection lowerName known newer = true)
    (hfields : older.fields? document = some fields) {setting : Setting}
    (hsetting : Setting.ofNode? newer = some setting) {base : Setting} (hbase : base.IsTable) :
    ∃ entries, Laid lowerName known base (setting.laidOver base) fields entries := by
  obtain ⟨entries, hsame, hkeeps, htable⟩ :=
    exists_entries_of_isSection hcorresponds hsection hfields
  obtain rfl := Option.some.inj (hsetting.symm.trans htable)
  refine ⟨entries, hkeeps, hsame, fun name hname => ?_, Setting.isTable_assignAll _ hbase⟩
  obtain ⟨admits, hadmits⟩ := Option.isSome_iff_exists.mp hname
  exact Setting.entry?_assignAll (hlower _ (Setting.mem_of_lookup hadmits)) _ base
    hkeeps.nodup_ofEntries (hkeeps.ne_spelled hlower hname)

/-- The sections of a file, laid over the table with the defaults of all. -/
theorem exists_laid_overlay (hlower : ∀ field ∈ known, lowerName field.1 = field.1)
    (hpath : ∀ field ∈ known, pathOf field.1 = [.entry field.1])
    (hcorresponds : older.corresponds newer = true)
    (hsection : isSection Setting.headName known newer = true)
    (hfields : older.fields? document = some fields) {base : Setting} (hbase : base.IsTable) :
    ∃ source entries, Setting.ofNode? newer = some (.table source) ∧
      Laid Setting.headName known base (base.overlay source) fields entries := by
  obtain ⟨entries, hsame, hkeeps, htable⟩ :=
    exists_entries_of_isSection hcorresponds hsection hfields
  have hspelled : ∀ field ∈ known, Setting.headName field.1 = field.1 := by
    intro field hmem
    simp [Setting.headName, hpath field hmem, hlower field hmem]
  refine ⟨_, entries, htable, hkeeps, hsame, fun name hname => ?_,
    Setting.isTable_overlay _ hbase⟩
  obtain ⟨admits, hadmits⟩ := Option.isSome_iff_exists.mp hname
  have hmem := Setting.mem_of_lookup hadmits
  exact Setting.entry?_overlay (hlower _ hmem) (hpath _ hmem) _ base hkeeps.nodup_ofEntries
    (hkeeps.ne_spelled hspelled hname)

end Laying

end Turnwise
