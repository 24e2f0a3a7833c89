import Turnwise.Proofs.Config.Sections

/-!
# The two readings of a configuration agree

A configuration can be read strictly from a text (`Config.ofText`), or loaded from a file with the
same text, laid over the defaults (`Config.load`).

`Config.load_of_ofText`: what is read strictly is loaded with the same result from a text that is
portable, which is one in which both revisions of the syntax see the same tree, every section is a
mapping, every known field is written as a value of its own type, and every other name is no
spelling of a known one. Outside these limits the ways part, as `Config.ofText_ne_load` shows:
a seed beyond the signed integers of 64 bits is rounded when it is loaded.
-/

namespace Turnwise

open Yaml (Node Value Document)

/-! ### Fields -/

/-- Whether a node is a scalar, with a text and a value that pass a test. -/
def isScalar (test : List Char → Value → Bool) : Node → Bool
  | .scalar tag style content => test content (Value.ofScalar tag style content)
  | _ => false

def isNatural : Node → Bool := isScalar fun
  | _, .integer _ => true
  | _, _ => false

/-- A floating-point number. As an integer it has no minus sign, because minus zero is no
integer. -/
def isSingle : Node → Bool := isScalar fun
  | _, .real _ => true
  | content, .integer _ => content.head? != some '-'
  | _, _ => false

def isFlag : Node → Bool := isScalar fun
  | _, .flag _ => true
  | _, _ => false

def isText : Node → Bool := isScalar fun
  | _, .text _ => true
  | _, _ => false

/-- The name of a selection policy, not a tag that names one. -/
def isPolicy : Node → Bool := isScalar fun
  | content, .text _ => (Node.policy? content).isSome
  | _, _ => false

def isSeed : Node → Bool := isScalar fun
  | _, .integer _ | _, .null => true
  | _, _ => false

/-- A field that holds a scalar is read alike if every scalar that passes the test is, and a node
that is left out if its sign does. -/
theorem readsAlike_scalar {α : Type} {test : List Char → Value → Bool} {read : Node → Option α}
    {read' : Setting → Option α} {default : Setting}
    (hscalar : ∀ tag style content value setting x, Denotes tag style content value →
      test content value = true → Setting.ofValue? value = some setting →
      read (.scalar tag style content) = some x → read' (setting.laidOver default) = some x)
    (homitted : ∀ x, test ['~'] .null = true → read (Node.omitted .v11) = some x →
      read' .absent = some x) : ReadsAlike (isScalar test) read read' default := by
  intro older newer setting x hcorresponds htest hsetting hread
  unfold isScalar at htest
  split at htest
  · next tag style content =>
    obtain rfl | ⟨rfl, hnewer⟩ := Node.corresponds_scalar hcorresponds
    · exact hscalar tag style content _ setting x (denotes_ofScalar tag style content) htest
        hsetting hread
    · cases hnewer
      cases hsetting
      exact homitted x htest hread
  · cases htest

theorem readsAlike_natural (default : Setting) :
    ReadsAlike isNatural Node.natural? Setting.natural? default := by
  refine readsAlike_scalar ?_ (fun x h _ => by cases h)
  intro tag style content value setting n hdenotes htest hsetting hread
  cases value with
  | integer z =>
    cases hsetting
    exact natural?_of_denotes hdenotes hread
  | _ => cases htest

theorem readsAlike_single (default : Setting) :
    ReadsAlike isSingle Node.single? Setting.single? default := by
  refine readsAlike_scalar ?_ (fun x h _ => by cases h)
  intro tag style content value setting x hdenotes htest hsetting hread
  cases value with
  | integer z =>
    cases hsetting
    exact single?_of_denotes_integer hdenotes (by simpa using htest) hread
  | real numeral =>
    obtain ⟨y, hy, rfl⟩ := Option.map_eq_some_iff.mp hsetting
    exact single?_of_denotes_real hdenotes hy hread
  | _ => cases htest

theorem readsAlike_flag (default : Setting) :
    ReadsAlike isFlag Node.flag? Setting.flag? default := by
  refine readsAlike_scalar ?_ (fun x h _ => by cases h)
  intro tag style content value setting b hdenotes htest hsetting hread
  cases value with
  | flag b =>
    cases hsetting
    exact flag?_of_denotes hdenotes hread
  | _ => cases htest

theorem readsAlike_text (default : Setting) :
    ReadsAlike isText Node.text? Setting.text? default := by
  refine readsAlike_scalar ?_ (fun x h _ => by cases h)
  intro tag style content value setting t hdenotes htest hsetting hread
  cases value with
  | text t =>
    cases hsetting
    exact text?_of_denotes hdenotes hread
  | _ => cases htest

theorem readsAlike_policy (default : Setting) :
    ReadsAlike isPolicy Node.selection? Setting.selection? default := by
  refine readsAlike_scalar ?_ (fun x h _ => by cases h)
  intro tag style content value setting policy hdenotes htest hsetting hread
  cases value with
  | text t =>
    cases hsetting
    exact selection?_of_denotes hdenotes htest hread
  | _ => cases htest

theorem readsAlike_seed (default : Setting) :
    ReadsAlike isSeed Node.seed? Setting.seed? default := by
  refine readsAlike_scalar ?_ (fun x _ hread => hread)
  intro tag style content value setting seed hdenotes htest hsetting hread
  cases value with
  | integer z =>
    cases hsetting
    exact seed?_of_denotes_integer hdenotes hread
  | null =>
    cases hsetting
    exact seed?_of_denotes_null hdenotes hread
  | _ => cases htest

/-! ### Sections -/

def engineFields : KnownFields :=
  [("num_workers", isNatural), ("selection", isPolicy), ("router_queue_size", isNatural),
    ("ack_timeout_ms", isNatural)]

def batchingFields : KnownFields :=
  [("max_prefill_tokens", isNatural), ("max_decode_sequences", isNatural),
    ("idle_backoff_ms", isNatural)]

def workerFields : KnownFields :=
  [("max_sessions", isNatural), ("command_queue_size", isNatural),
    ("stream_buffer_size", isNatural), ("batching", isSection lowerName batchingFields)]

def samplingFields : KnownFields :=
  [("temperature", isSingle), ("top_k", isNatural), ("top_p", isSingle), ("seed", isSeed)]

def observabilityFields : KnownFields := [("log_level", isText), ("enable_metrics", isFlag)]

def configFields : KnownFields :=
  [("engine", isSection lowerName engineFields), ("worker", isSection lowerName workerFields),
    ("sampling", isSection lowerName samplingFields),
    ("observability", isSection lowerName observabilityFields)]

namespace Config

/-- The defaults of all sections. -/
def defaults : Setting := Setting.ofConfig {}

theorem readsAlike_engine (document : Document) :
    ReadsAlike (isSection lowerName engineFields) (readEngine? document) engineOf?
      (defaults.child "engine") := by
  intro older newer setting engine hcorresponds hsection hsetting hread
  simp only [readEngine?, Option.bind_eq_bind, Option.bind_eq_some_iff] at hread
  obtain ⟨fields, hfields, workers, hworkers, selection, hselection, queue, hqueue, timeout,
    htimeout, hengine⟩ := hread
  obtain ⟨entries, hlaid⟩ := exists_laid_section (by decide) hcorresponds hsection hfields hsetting
    (show (defaults.child "engine").IsTable from ⟨_, rfl⟩)
  simp only [engineOf?, hlaid.field?, Option.bind_eq_bind, Option.bind_some]
  rw [hlaid.pick?_eq rfl (readsAlike_natural _) hworkers rfl rfl,
    hlaid.pick?_eq rfl (readsAlike_policy _) hselection rfl rfl,
    hlaid.pick?_eq rfl (readsAlike_natural _) hqueue rfl rfl,
    hlaid.pick?_eq rfl (readsAlike_natural _) htimeout rfl rfl]
  exact hengine

theorem readsAlike_batching (document : Document) :
    ReadsAlike (isSection lowerName batchingFields) (readBatching? document) batchingOf?
      ((defaults.child "worker").child "batching") := by
  intro older newer setting batching hcorresponds hsection hsetting hread
  simp only [readBatching?, Option.bind_eq_bind, Option.bind_eq_some_iff] at hread
  obtain ⟨fields, hfields, tokens, htokens, sequences, hsequences, backoff, hbackoff,
    hbatching⟩ := hread
  obtain ⟨entries, hlaid⟩ := exists_laid_section (by decide) hcorresponds hsection hfields hsetting
    (show ((defaults.child "worker").child "batching").IsTable from ⟨_, rfl⟩)
  simp only [batchingOf?, hlaid.field?, Option.bind_eq_bind, Option.bind_some]
  rw [hlaid.pick?_eq rfl (readsAlike_natural _) htokens rfl rfl,
    hlaid.pick?_eq rfl (readsAlike_natural _) hsequences rfl rfl,
    hlaid.pick?_eq rfl (readsAlike_natural _) hbackoff rfl rfl]
  exact hbatching

theorem readsAlike_worker (document : Document) :
    ReadsAlike (isSection lowerName workerFields) (readWorker? document) workerOf?
      (defaults.child "worker") := by
  intro older newer setting worker hcorresponds hsection hsetting hread
  simp only [readWorker?, Option.bind_eq_bind, Option.bind_eq_some_iff] at hread
  obtain ⟨fields, hfields, sessions, hsessions, commands, hcommands, buffer, hbuffer, batching,
    hbatching, hworker⟩ := hread
  obtain ⟨entries, hlaid⟩ := exists_laid_section (by decide) hcorresponds hsection hfields hsetting
    (show (defaults.child "worker").IsTable from ⟨_, rfl⟩)
  simp only [workerOf?, hlaid.field?, Option.bind_eq_bind, Option.bind_some]
  rw [hlaid.pick?_eq rfl (readsAlike_natural _) hsessions rfl rfl,
    hlaid.pick?_eq rfl (readsAlike_natural _) hcommands rfl rfl,
    hlaid.pick?_eq rfl (readsAlike_natural _) hbuffer rfl rfl,
    hlaid.pick?_eq rfl (readsAlike_batching document) hbatching rfl rfl]
  exact hworker

/-- The default numbers are the same after widening and narrowing. -/
theorem single?_widen_defaults :
    (Setting.real (widen 0.0)).single? = some 0.0 ∧
      (Setting.real (widen 0.95)).single? = some 0.95 := by decide +kernel

theorem readsAlike_sampling (document : Document) :
    ReadsAlike (isSection lowerName samplingFields) (readSampling? document) samplingOf?
      (defaults.child "sampling") := by
  intro older newer setting sampling hcorresponds hsection hsetting hread
  simp only [readSampling?, Option.bind_eq_bind, Option.bind_eq_some_iff] at hread
  obtain ⟨fields, hfields, temperature, htemperature, topK, htopK, topP, htopP, seed, hseed,
    hsampling⟩ := hread
  obtain ⟨entries, hlaid⟩ := exists_laid_section (by decide) hcorresponds hsection hfields hsetting
    (show (defaults.child "sampling").IsTable from ⟨_, rfl⟩)
  simp only [samplingOf?, hlaid.field?, Option.bind_eq_bind, Option.bind_some]
  rw [hlaid.pick?_eq rfl (readsAlike_single _) htemperature rfl single?_widen_defaults.1,
    hlaid.pick?_eq rfl (readsAlike_natural _) htopK rfl rfl,
    hlaid.pick?_eq rfl (readsAlike_single _) htopP rfl single?_widen_defaults.2,
    hlaid.pick?_eq rfl (readsAlike_seed _) hseed rfl rfl]
  exact hsampling

theorem readsAlike_observability (document : Document) :
    ReadsAlike (isSection lowerName observabilityFields) (readObservability? document)
      observabilityOf? (defaults.child "observability") := by
  intro older newer setting observability hcorresponds hsection hsetting hread
  simp only [readObservability?, Option.bind_eq_bind, Option.bind_eq_some_iff] at hread
  obtain ⟨fields, hfields, level, hlevel, metrics, hmetrics, hobservability⟩ := hread
  obtain ⟨entries, hlaid⟩ := exists_laid_section (by decide) hcorresponds hsection hfields hsetting
    (show (defaults.child "observability").IsTable from ⟨_, rfl⟩)
  simp only [observabilityOf?, hlaid.field?, Option.bind_eq_bind, Option.bind_some]
  rw [hlaid.pick?_eq rfl (readsAlike_text _) hlevel rfl rfl,
    hlaid.pick?_eq rfl (readsAlike_flag _) hmetrics rfl rfl]
  exact hobservability

/-- The sections without any entries are the defaults. -/
theorem ofSetting?_sections_defaults :
    engineOf? (defaults.child "engine") = some {} ∧ workerOf? (defaults.child "worker") = some {} ∧
      samplingOf? (defaults.child "sampling") = some {} ∧
      observabilityOf? (defaults.child "observability") = some {} := by decide +kernel

/-! ### Whole configurations -/

theorem ofSetting?_overlay {older newer : Document} {config : Config}
    (hcorresponds : older.root.corresponds newer.root = true)
    (hsection : isSection Setting.headName configFields newer.root = true)
    (hread : ofDocument? older = some config) :
    ∃ source, Setting.ofNode? newer.root = some (.table source) ∧
      ofSetting? (defaults.overlay source) = some config := by
  simp only [ofDocument?, Option.bind_eq_bind, Option.bind_eq_some_iff] at hread
  obtain ⟨fields, hfields, engine, hengine, worker, hworker, sampling, hsampling, observability,
    hobservability, hconfig⟩ := hread
  obtain ⟨source, entries, hsource, hlaid⟩ := exists_laid_overlay (by decide) (by decide)
    hcorresponds hsection hfields (show defaults.IsTable from ⟨_, rfl⟩)
  obtain ⟨hdefaultEngine, hdefaultWorker, hdefaultSampling, hdefaultObservability⟩ :=
    ofSetting?_sections_defaults
  refine ⟨source, hsource, ?_⟩
  simp only [ofSetting?, hlaid.field?, Option.bind_eq_bind, Option.bind_some]
  rw [hlaid.pick?_eq rfl (readsAlike_engine older) hengine rfl hdefaultEngine,
    hlaid.pick?_eq rfl (readsAlike_worker older) hworker rfl hdefaultWorker,
    hlaid.pick?_eq rfl (readsAlike_sampling older) hsampling rfl hdefaultSampling,
    hlaid.pick?_eq rfl (readsAlike_observability older) hobservability rfl hdefaultObservability]
  exact hconfig

/-- Whether both readers see the same fields in a text: the two revisions of the syntax agree on its
tree, and it keeps to the rules of the sections. A text without a document has no fields. -/
def isPortable (text : String) : Bool :=
  match Yaml.parse? .v11 text, Yaml.parse? .v12 text with
  | some [], some [] => true
  | some [older], some [newer] =>
    older.root.corresponds newer.root && isSection Setting.headName configFields newer.root
  | _, _ => false

/-- Without entries there are only defaults. -/
theorem ofSetting?_defaults : ofSetting? defaults = some {} := by decide +kernel

theorem layered?_of_parse? {text : String} {environment : List (String × String)} {config : Config}
    (hportable : isPortable text = true) (hquiet : variableEntries environment = [])
    (h : parse? text = some config) : layered? (some (.text text)) environment = some config := by
  unfold isPortable at hportable
  split at hportable
  · next holder hnewer =>
    obtain rfl : {} = config := by simpa [parse?, holder] using h
    simp only [layered?, sourceEntries?, fileEntries?, hnewer, hquiet, Option.bind_eq_bind,
      Option.bind_some]
    exact ofSetting?_defaults
  · next older newer holder hnewer =>
    have hread : ofDocument? older = some config := by simpa [parse?, holder] using h
    simp only [Bool.and_eq_true] at hportable
    obtain ⟨source, hsource, hsetting⟩ := ofSetting?_overlay hportable.1 hportable.2 hread
    obtain ⟨value, hvalue, htable⟩ := Option.bind_eq_some_iff.mp hsource
    have hentries : fileEntries? text = some source := by
      simp [fileEntries?, hnewer, hvalue, htable]
    simp only [layered?, sourceEntries?, hentries, hquiet, Option.bind_eq_bind, Option.bind_some]
    exact hsetting
  · cases hportable

/-- What is read strictly from a portable text is loaded with the same result from a file with that
text, if no variable of the environment counts. -/
theorem load_of_ofText {text : String} {environment : List (String × String)} {config : Config}
    (hportable : isPortable text = true)
    (hquiet : ∀ entry ∈ environment, variableEntry? entry.1 entry.2 = none)
    (h : ofText text = .ok config) : load (some (.text text)) environment = .ok config := by
  have hnone : variableEntries environment = [] := List.filterMap_eq_nil_iff.mpr hquiet
  unfold ofText at h
  split at h
  · cases h
  · next parsed hparsed =>
    simpa only [load, layered?_of_parse? hportable hnone hparsed] using h

/-- A text with a field of each kind but the truth values. -/
def portableText : String :=
  "engine:\n  num_workers: 3\n  selection: least_loaded\n" ++
    "sampling:\n  temperature: 0.5\n  seed: 7\nobservability:\n  log_level: debug\n"

def portableConfig : Config :=
  { engine := { numWorkers := 3, selection := .leastLoaded }
    sampling := { temperature := 0.5, seed := some 7 }
    observability := { logLevel := "debug" } }

theorem load_of_ofText_portableText :
    isPortable portableText = true ∧ ofText portableText = .ok portableConfig ∧
      load (some (.text portableText)) [("HOME", "/root")] = .ok portableConfig := by
  have hportable : isPortable portableText = true := by decide +kernel
  have hquiet : ∀ entry ∈ [("HOME", "/root")], variableEntry? entry.1 entry.2 = none := by decide
  have htext : ofText portableText = .ok portableConfig := by decide +kernel
  exact ⟨hportable, htext, load_of_ofText hportable hquiet htext⟩

/-- A seed beyond the signed integers of 64 bits is kept by the strict reading, but a file holds it
as a floating-point number, and the seed that is loaded is the one nearest to it. -/
theorem ofText_ne_load :
    let text := "sampling:\n  seed: 9223372036854775809\n"
    ofText text = .ok { sampling := { seed := some 9223372036854775809 } } ∧
      load (some (.text text)) [] = .ok { sampling := { seed := some 9223372036854775808 } } := by
  decide +kernel

end Config

end Turnwise
