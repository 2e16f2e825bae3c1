/-
# Deferral.Proofs.Settings.Layers -- where each setting comes from

Settings are layered: what a section of the document gives last goes before the default, and the
address of the environment goes before that of the document. The layers do not mix. A section is
read from its own entries alone, and nothing in a document can give a token. Which document a file
stands for is left to the loader: the layers are the same for all of them.

All of this is for documents without the reserved name that stands for all attributes of a section
at once. The other reserved names need no such condition, since settings are not read with them.
-/

import Deferral.Proofs.CommandLine.Tasks
import Deferral.Proofs.Failure.Chain
import Deferral.Proofs.Value.Equality

namespace Deferral

/-! ## Attributes -/

namespace Attributes

variable {α : Type} {attributes : Attributes α} {name other : String} {value : α}

@[simp] theorem get?_set_self : (attributes.set name value).get? name = some value := by
  simp [get?, set]

@[simp] theorem get?_set_of_ne (h : other ≠ name) :
    (attributes.set name value).get? other = attributes.get? other := by
  unfold get? set
  rw [List.find?_cons_of_neg (by simpa using h.symm), find?_filter_of_ne h]

end Attributes

/-! ## The last of equal keys -/

namespace Value

variable {name : String} {key value : Value} {entries : List (Value × Value)}

/-- The values under a text, in their order. -/
def allUnder (name : String) (entries : List (Value × Value)) : List Value :=
  (entries.filter fun entry => entry.1.same (text name)).map Prod.snd

theorem allUnder_cons :
    allUnder name ((key, value) :: entries) =
      if key.same (text name) then value :: allUnder name entries else allUnder name entries := by
  rw [allUnder, List.filter_cons]
  split <;> rfl

theorem allUnder_cons_text (other : String) :
    allUnder name ((text other, value) :: entries) =
      if other = name then value :: allUnder name entries else allUnder name entries := by
  have hsame : (text other).same (text name) = (other == name) := rfl
  rw [allUnder_cons, hsame]
  by_cases h : other = name
  · rw [if_pos (beq_iff_eq.mpr h), if_pos h]
  · rw [if_neg (mt beq_iff_eq.mp h), if_neg h]

theorem allUnder_append (first second : List (Value × Value)) :
    allUnder name (first ++ second) = allUnder name first ++ allUnder name second := by
  rw [allUnder, List.filter_append, List.map_append]
  rfl

/-- The value under a text is the first one. -/
theorem entry?_eq_head? : entry? name entries = (allUnder name entries).head? := by
  induction entries with
  | nil => rfl
  | cons entry entries ih =>
      unfold entry? lookup?
      rw [allUnder_cons]
      split
      · rfl
      · exact ih

/-- A value goes in place of the first one under its key, or after all of them. -/
theorem allUnder_insertEntry_self (h : key.same (text name) = true) :
    allUnder name (insertEntry key value entries) = value :: (allUnder name entries).tail := by
  obtain rfl := eq_text_of_same h
  induction entries with
  | nil =>
      rw [insertEntry, allUnder_cons, if_pos h]
      rfl
  | cons entry entries ih =>
      rw [insertEntry]
      by_cases hentry : entry.1.same (text name) = true
      · rw [if_pos hentry, allUnder_cons, if_pos hentry, allUnder_cons, if_pos hentry]
        rfl
      · rw [if_neg hentry, allUnder_cons, if_neg hentry, ih, allUnder_cons, if_neg hentry]

/-- A value under another key changes nothing. -/
theorem allUnder_insertEntry_of_not (h : ¬ key.same (text name) = true) :
    allUnder name (insertEntry key value entries) = allUnder name entries := by
  induction entries with
  | nil => rw [insertEntry, allUnder_cons, if_neg h]
  | cons entry entries ih =>
      rw [insertEntry]
      by_cases hentry : entry.1.same key = true
      · -- A key that is equal to one that is not the text is not the text either.
        have hstays : ¬ entry.1.same (text name) = true := by
          intro hname
          rw [eq_text_of_same hname] at hentry
          rw [eq_text_of_text_same hentry] at h
          exact h (beq_self_eq_true name)
        rw [if_pos hentry, allUnder_cons, if_neg hstays, allUnder_cons, if_neg hstays]
      · rw [if_neg hentry, allUnder_cons, ih, ← allUnder_cons]

/-- Of equal keys the last one counts. -/
theorem allUnder_foldl_insertEntry (entries : List (Value × Value)) :
    allUnder name (entries.foldl (fun done entry => insertEntry entry.1 entry.2 done) []) =
      (allUnder name entries).getLast?.toList := by
  induction entries using List.reverseRecOn with
  | nil => rfl
  | append_singleton entries entry ih =>
      rw [List.foldl_append, List.foldl_cons, List.foldl_nil, allUnder_append, allUnder_cons]
      by_cases hentry : entry.1.same (text name) = true
      · rw [allUnder_insertEntry_self hentry, ih, if_pos hentry]
        show _ = (allUnder name entries ++ [entry.2]).getLast?.toList
        rw [List.getLast?_concat]
        cases (allUnder name entries).getLast? <;> rfl
      · rw [allUnder_insertEntry_of_not hentry, ih, if_neg hentry]
        show _ = (allUnder name entries ++ []).getLast?.toList
        rw [List.append_nil]

end Value

/-! ## What a document gives -/

namespace Settings

/-- The entries of a section of a document. -/
def entriesOf (name : String) : Value → List (Value × Value)
  | .map sections =>
    match Value.entry? name sections with
    | some (.map entries) => entries
    | _ => []
  | _ => []

/-- The value that a section of a document gives to an attribute: the last one. -/
def given? (name key : String) (document : Value) : Option Value :=
  (Value.allUnder key (entriesOf name document)).getLast?

/-- What is given comes from the last section of its name, and is the last value of its key there.
Neither has to be the only one in the text of the document. -/
theorem given?_toValue {name key : String} {whole entries : Yaml.Node.Entries}
    (h : (Value.allUnder name (whole.taken ++ whole.own)).getLast? = some entries.toValue) :
    given? name key whole.toValue =
      (Value.allUnder key (entries.taken ++ entries.own)).getLast? := by
  have hsection : Value.entry? name ((whole.taken ++ whole.own).foldl
      (fun done entry => Value.insertEntry entry.1 entry.2 done) []) = some entries.toValue := by
    rw [Value.entry?_eq_head?, Value.allUnder_foldl_insertEntry, h]
    rfl
  rw [given?, Yaml.Node.Entries.toValue, entriesOf, hsection]
  show (Value.allUnder key (entries.taken ++ entries.own |>.foldl
    (fun done entry => Value.insertEntry entry.1 entry.2 done) [])).getLast? = _
  rw [Value.allUnder_foldl_insertEntry]
  cases (Value.allUnder key (entries.taken ++ entries.own)).getLast? <;> rfl

variable {α : Type} {form : SectionForm α} {document : Value} {attributes after : Attributes α}
  {name key : String}

/-- A section is its entries, and one that is not there has none. -/
theorem section?_ok {found : Option (List (Value × Value))}
    (h : section? name document = .ok found) : found.getD [] = entriesOf name document := by
  unfold section? at h
  split at h
  · split at h
    · next sections =>
        rw [entriesOf]
        split at h
        · next hentry =>
            cases h
            rw [hentry]
            rfl
        · next hentry =>
            cases h
            rw [hentry]
            rfl
        · cases h
    · split at h <;> cases h
      rfl
    · split at h <;> cases h
      rfl
    · cases h
  · next habsent =>
      cases h
      cases document with
      | map sections =>
          -- A mapping that does not count as present is empty.
          cases sections with
          | nil => rfl
          | cons entry sections => exact absurd rfl habsent
      | _ => rfl

theorem readSection_ok (h : readSection form document attributes = .ok after) :
    assignAll form attributes (entriesOf form.name document) = .ok after := by
  obtain ⟨found, hfound, hafter⟩ := bind_eq_ok h
  rw [← section?_ok hfound]
  cases found with
  | none => exact hafter
  | some entries => exact hafter

/-! ## Attributes after a section -/

/-- An attribute after a value that it may be given: what the value stands for, or what it was. -/
def Overrides (form : SectionForm α) (given : Option Value) (before after : Option α) : Prop :=
  ∃ value, given.mapM form.ofValue = .ok value ∧ after = value.or before

theorem overrides_none {before : Option α} : Overrides form none before before :=
  ⟨none, rfl, rfl⟩

/-- Of values that are given one after the other the last one counts. -/
theorem Overrides.cons {value : Value} {values : List Value} {a : α} {before after : Option α}
    (ha : form.ofValue value = .ok a) (h : Overrides form values.getLast? (some a) after) :
    Overrides form (value :: values).getLast? before after := by
  cases values with
  | nil =>
      obtain ⟨_, hnone, rfl⟩ := h
      cases hnone
      refine ⟨some a, ?_, rfl⟩
      show some <$> form.ofValue value = .ok (some a)
      rw [ha]
      rfl
  | cons next values =>
      rw [List.getLast?_cons_cons]
      obtain ⟨last, hlast, rfl⟩ := h
      refine ⟨last, hlast, ?_⟩
      rw [List.getLast?_cons] at hlast
      obtain ⟨b, -, rfl⟩ := map_eq_ok hlast
      rfl

/-- The step: an attribute that is not reserved is set, and the other ones are left. -/
theorem assign_ok {value : α} (hname : name ≠ wholeName)
    (h : assign form attributes name value = .ok after) : after = attributes.set name value := by
  rw [assign, if_neg hname] at h
  split at h
  · cases h
  · split at h
    · cases h
    · cases h
      rfl

/-- The run: after all entries an attribute is what the last of its values stands for. -/
theorem assignAll_overrides {entries : List (Value × Value)}
    (hordinary : Value.allUnder wholeName entries = [])
    (h : assignAll form attributes entries = .ok after) (key : String) :
    Overrides form (Value.allUnder key entries).getLast? (attributes.get? key)
      (after.get? key) := by
  induction entries generalizing attributes with
  | nil =>
      cases h
      exact overrides_none
  | cons entry entries ih =>
      obtain ⟨name, value⟩ := entry
      cases name with
      | text name =>
          obtain ⟨a, ha, h⟩ := bind_eq_ok h
          obtain ⟨middle, hmiddle, h⟩ := bind_eq_ok h
          rw [Value.allUnder_cons_text] at hordinary ⊢
          have hname : name ≠ wholeName := by
            intro heq
            rw [if_pos heq] at hordinary
            cases hordinary
          rw [if_neg hname] at hordinary
          obtain rfl := assign_ok hname hmiddle
          have hrest := ih hordinary h
          by_cases hkey : name = key
          · rw [if_pos hkey]
            rw [hkey, Attributes.get?_set_self] at hrest
            exact hrest.cons ha
          · rw [if_neg hkey]
            rw [Attributes.get?_set_of_ne (Ne.symm hkey)] at hrest
            exact hrest
      -- A key that is not a text is refused.
      | _ => cases h

theorem readSection_overrides (hordinary : given? form.name wholeName document = none)
    (h : readSection form document attributes = .ok after) (key : String) :
    Overrides form (given? form.name key document) (attributes.get? key) (after.get? key) :=
  assignAll_overrides (List.getLast?_eq_none_iff.mp hordinary) (readSection_ok h) key

/-- Values stand for themselves, so that an attribute is the value that it is given. -/
theorem overrides_valueSection {given before after : Option Value} :
    Overrides (valueSection name) given before after ↔ after = given.or before := by
  have hself : given.mapM (valueSection name).ofValue = .ok given := by cases given <;> rfl
  constructor
  · rintro ⟨value, hvalue, rfl⟩
    rw [Except.ok.inj (hvalue.symm.trans hself)]
  · intro h
    exact ⟨given, hself, h⟩

/-! ## The layers of settings -/

/-- The address of the environment, if it is not empty. -/
def addressOf (environment : Environment) : Option String :=
  environment.jobQueueUrl.filter fun url => !url.isEmpty

theorem overrideUrl_eq (environment : Environment) (jobQueue : Attributes Value) :
    overrideUrl environment jobQueue =
      match addressOf environment with
      | some url => jobQueue.set "url" (.text url)
      | none => jobQueue := by
  rw [overrideUrl, addressOf]
  cases environment.jobQueueUrl with
  | none => rfl
  | some url =>
      rw [Option.filter_some]
      by_cases hempty : url.isEmpty = true <;> simp [hempty]

theorem get?_overrideUrl_url {environment : Environment} {jobQueue : Attributes Value} :
    (overrideUrl environment jobQueue).get? "url" =
      ((addressOf environment).map Value.text).or (jobQueue.get? "url") := by
  rw [overrideUrl_eq]
  cases addressOf environment with
  | none => rfl
  | some url => exact Attributes.get?_set_self

theorem get?_overrideUrl_of_ne {environment : Environment} {jobQueue : Attributes Value}
    (h : key ≠ "url") : (overrideUrl environment jobQueue).get? key = jobQueue.get? key := by
  rw [overrideUrl_eq]
  cases addressOf environment with
  | none => rfl
  | some url => exact Attributes.get?_set_of_ne h

/-- The names of the sections. -/
def sectionNames : List String := ["directives", "threads", "job_queue", "storage"]

/-- No section of a document names all its attributes at once. -/
def Ordinary (document : Value) : Prop :=
  ∀ name ∈ sectionNames, given? name wholeName document = none

/-- Each setting comes from its own place: the token from the environment, the address from there
or from its section, and all else from its section or the defaults. -/
structure Layered (document : Value) (environment : Environment) (settings : Settings) : Prop where
  token : settings.jobQueueToken = environment.jobQueueToken
  address : settings.jobQueue.get? "url" = some ((((addressOf environment).map Value.text).or
    (given? "job_queue" "url" document)).getD .null)
  jobQueue : ∀ key, key ≠ "url" → settings.jobQueue.get? key =
    (given? "job_queue" key document).or (default.jobQueue.get? key)
  directives : ∀ key, settings.directives.get? key =
    (given? "directives" key document).or (default.directives.get? key)
  threads : ∀ key, settings.threads.get? key =
    (given? "threads" key document).or (default.threads.get? key)
  storage : ∀ key, ∃ path, (given? "storage" key document).mapM pathOfValue = .ok path ∧
    settings.storage.get? key = path.or (default.storage.get? key)

variable {environment : Environment} {settings : Settings}

theorem layered_of_ofDocument (hordinary : Ordinary document)
    (h : ofDocument document environment = .ok settings) :
    Layered document environment settings := by
  obtain ⟨directives, hdirectives, hrest⟩ := bind_eq_ok h
  obtain ⟨threads, hthreads, hrest⟩ := bind_eq_ok hrest
  obtain ⟨jobQueue, hjobQueue, hrest⟩ := bind_eq_ok hrest
  obtain ⟨storage, hstorage, hrest⟩ := bind_eq_ok hrest
  cases hrest
  -- Before the address of the environment, the queue is a section like the others.
  have hqueue : ∀ key, jobQueue.get? key =
      (given? "job_queue" key document).or (default.jobQueue.get? key) := by
    intro key
    apply overrides_valueSection.mp
    exact readSection_overrides (hordinary _ (by decide)) hjobQueue key
  constructor
  case token => rfl
  case address =>
    show (overrideUrl environment jobQueue).get? "url" = _
    rw [get?_overrideUrl_url, hqueue]
    -- The defaults have an address too, which is null.
    show _ = some _
    cases addressOf environment with
    | some url => rfl
    | none => cases given? "job_queue" "url" document <;> rfl
  case jobQueue =>
    intro key hkey
    show (overrideUrl environment jobQueue).get? key = _
    rw [get?_overrideUrl_of_ne hkey, hqueue]
  case directives =>
    intro key
    apply overrides_valueSection.mp
    exact readSection_overrides (hordinary _ (by decide)) hdirectives key
  case threads =>
    intro key
    apply overrides_valueSection.mp
    exact readSection_overrides (hordinary _ (by decide)) hthreads key
  case storage =>
    intro key
    exact readSection_overrides (hordinary _ (by decide)) hstorage key

/-- Two documents that agree on a path in the storage give the same. -/
theorem Layered.storage_unique {document' : Value} {environment' : Environment}
    {settings' : Settings} (h : Layered document environment settings)
    (h' : Layered document' environment' settings')
    (hgiven : given? "storage" key document = given? "storage" key document') :
    settings.storage.get? key = settings'.storage.get? key := by
  obtain ⟨path, hpath, hget⟩ := h.storage key
  obtain ⟨path', hpath', hget'⟩ := h'.storage key
  rw [hgiven] at hpath
  rw [hget, hget', Except.ok.inj (hpath.symm.trans hpath')]

/-- Two documents that agree on the attribute of a queue give the same in environments with the same
address. -/
theorem Layered.jobQueue_unique {document' : Value} {environment' : Environment}
    {settings' : Settings} (h : Layered document environment settings)
    (h' : Layered document' environment' settings')
    (hgiven : given? "job_queue" key document = given? "job_queue" key document')
    (haddress : addressOf environment = addressOf environment') :
    settings.jobQueue.get? key = settings'.jobQueue.get? key := by
  by_cases hkey : key = "url"
  · rw [hkey] at hgiven ⊢
    rw [h.address, h'.address, hgiven, haddress]
  · rw [h.jobQueue key hkey, h'.jobQueue key hkey, hgiven]

end Settings

/-! ## The document of a file -/

/-- The document that a settings file stands for, in the way in which it is loaded. A file that is
missing stands for an empty one. -/
inductive Tree.Holds (load : Command.Loader) (files : Tree) (config : Pathname) : Value → Prop
  | missing : files.has config = .ok false → Holds load files config .null
  | loaded {text : List Char} {document : Value} : files.read config = .ok text →
      load text = .ok document → Holds load files config document

namespace Tree

variable {files : Tree} {path : Pathname} {text : List Char}

/-- What is read is there. -/
theorem has_of_read (h : files.read path = .ok text) : files.has path = .ok true := by
  obtain ⟨place, hplace, -⟩ := bind_eq_ok h
  rw [has, hplace]

/-- A file stands for one document. -/
theorem Holds.unique {load : Command.Loader} {document other : Value}
    (h : files.Holds load path document) (hother : files.Holds load path other) :
    document = other := by
  cases h with
  | missing hmissing =>
      cases hother with
      | missing => rfl
      | loaded htext => cases hmissing.symm.trans (has_of_read htext)
  | loaded htext hload =>
      cases hother with
      | missing hmissing => cases hmissing.symm.trans (has_of_read htext)
      | loaded htext' hload' =>
          cases htext.symm.trans htext'
          exact Except.ok.inj (hload.symm.trans hload')

end Tree

namespace Command

variable {load : Loader} {around : Surroundings} {config : Pathname} {progress : Progress}

theorem refuse_ok {α : Type} {result : Except FileFault α} {a : α} (h : result = .ok a) :
    refuse result progress = (.ok a, progress) := by
  rw [h]
  rfl

theorem refuse_eq_ok {α : Type} {result : Except FileFault α} {a : α} {after : Progress}
    (h : refuse result progress = (.ok a, after)) : result = .ok a ∧ after = progress := by
  cases result with
  | error fault => cases h
  | ok b =>
      cases h
      exact ⟨rfl, rfl⟩

/-- A file is loaded exactly if it stands for a document. -/
theorem loadConfig_eq_ok_iff {document : Value} :
    (loadConfig load config progress).1 = .ok document ↔
      progress.files.Holds load config document := by
  have hget : (get : Task Progress) progress = (.ok progress, progress) := rfl
  constructor
  · intro h
    rcases hrun : loadConfig load config progress with ⟨result, after⟩
    obtain rfl : result = .ok document := (congrArg Prod.fst hrun).symm.trans h
    rw [loadConfig, Action.bind_ok hget] at hrun
    obtain ⟨present, middle, hrefuse, hrest⟩ := Action.bind_eq_ok hrun
    obtain ⟨hhas, rfl⟩ := refuse_eq_ok hrefuse
    cases present with
    | false =>
        cases hrest
        exact .missing hhas
    | true =>
        rw [if_pos rfl] at hrest
        obtain ⟨text, last, hrefuse', hloaded⟩ := Action.bind_eq_ok hrest
        rw [Action.ofExcept_run] at hloaded
        exact .loaded (refuse_eq_ok hrefuse').1 (congrArg Prod.fst hloaded)
  · rintro (hmissing | ⟨htext, hload⟩)
    · rw [loadConfig, Action.bind_ok hget, Action.bind_ok (refuse_ok hmissing)]
      rfl
    · rw [loadConfig, Action.bind_ok hget, Action.bind_ok (refuse_ok (Tree.has_of_read htext)),
        if_pos rfl, Action.bind_ok (refuse_ok htext), Action.ofExcept_run]
      exact hload

/-- Settings can be loaded exactly if the file stands for a document, and they are those of this
document and the environment. -/
theorem loadSettings_eq_ok_iff {settings : Settings} :
    (loadSettings load around config progress).1 = .ok settings ↔
      ∃ document, progress.files.Holds load config document ∧
        Settings.ofDocument document around.environment = .ok settings := by
  simp only [← loadConfig_eq_ok_iff]
  constructor
  · intro h
    rcases hrun : loadSettings load around config progress with ⟨result, after⟩
    obtain rfl : result = .ok settings := (congrArg Prod.fst hrun).symm.trans h
    obtain ⟨document, middle, hload, hrun⟩ := Action.bind_eq_ok hrun
    rw [Action.ofExcept_run] at hrun
    exact ⟨document, congrArg Prod.fst hload, congrArg Prod.fst hrun⟩
  · rintro ⟨document, hload, hsettings⟩
    rcases hrun : loadConfig load config progress with ⟨result, after⟩
    obtain rfl : result = .ok document := (congrArg Prod.fst hrun).symm.trans hload
    rw [loadSettings, Action.bind_ok hrun, Action.ofExcept_run]
    exact hsettings

end Command

namespace Settings

/-- The document of a file in YAML has the entries that stand in its text. -/
theorem document_of_text {files : Tree} {config : Pathname} {document : Value} {text : List Char}
    {nodes : List (Yaml.Node × Yaml.Node)} {whole : Yaml.Node.Entries}
    (h : files.Holds Yaml.read config document) (htext : files.read config = .ok text)
    (hnode : Yaml.readDocument text = .ok (.map nodes))
    (hentries : Yaml.Node.entryMeanings nodes = .ok whole) : document = whole.toValue := by
  refine h.unique (.loaded htext ?_)
  rw [Yaml.read, hnode]
  show (Yaml.Node.map nodes).value = .ok whole.toValue
  rw [Yaml.Node.value, Yaml.Node.meaning, hentries]
  rfl

/-- **The layers of settings do not mix.** Whatever a settings file holds, and however it is loaded:
if this gives settings, then the file stands for a document, and the settings have the token of the
environment, the address of the environment or else of the document, and for every other attribute
what its own section gives or else the default. What a section gives is its last value for the
attribute, also where sections or keys stand several times in the text of a file in YAML. So two
files that agree on an attribute give it the same value, and two files never give different
tokens. -/
theorem layers_apart {load : Command.Loader} {around : Surroundings} {config : Pathname}
    {progress : Progress} {settings : Settings}
    (h : (Command.loadSettings load around config progress).1 = .ok settings) :
    ∃ document, progress.files.Holds load config document ∧
      (load = Yaml.read → ∀ {text nodes} {whole entries : Yaml.Node.Entries} {name key},
        progress.files.read config = .ok text → Yaml.readDocument text = .ok (.map nodes) →
        Yaml.Node.entryMeanings nodes = .ok whole →
        (Value.allUnder name (whole.taken ++ whole.own)).getLast? = some entries.toValue →
        given? name key document =
          (Value.allUnder key (entries.taken ++ entries.own)).getLast?) ∧
      (Ordinary document → Layered document around.environment settings ∧
        ∀ {load' around' config' progress' settings' document'},
          (Command.loadSettings load' around' config' progress').1 = .ok settings' →
          progress'.files.Holds load' config' document' → Ordinary document' →
          (around.environment.jobQueueToken = around'.environment.jobQueueToken →
            settings.jobQueueToken = settings'.jobQueueToken) ∧
          ∀ key,
            (given? "directives" key document = given? "directives" key document' →
              settings.directives.get? key = settings'.directives.get? key) ∧
            (given? "threads" key document = given? "threads" key document' →
              settings.threads.get? key = settings'.threads.get? key) ∧
            (given? "job_queue" key document = given? "job_queue" key document' →
              addressOf around.environment = addressOf around'.environment →
              settings.jobQueue.get? key = settings'.jobQueue.get? key) ∧
            (given? "storage" key document = given? "storage" key document' →
              settings.storage.get? key = settings'.storage.get? key)) := by
  obtain ⟨document, hholds, hdocument⟩ := Command.loadSettings_eq_ok_iff.mp h
  refine ⟨document, hholds, ?_, fun hordinary => ?_⟩
  · rintro rfl text nodes whole entries name key htext hnode hentries hlast
    rw [document_of_text hholds htext hnode hentries]
    exact given?_toValue hlast
  · have hlayers := layered_of_ofDocument hordinary hdocument
    refine ⟨hlayers, ?_⟩
    -- Two runs: each is summed up by its layers, so that only these are compared.
    intro load' around' config' progress' settings' document' h' hholds' hordinary'
    obtain ⟨_, hloaded, hdocument'⟩ := Command.loadSettings_eq_ok_iff.mp h'
    obtain rfl := hholds'.unique hloaded
    have hlayers' := layered_of_ofDocument hordinary' hdocument'
    constructor
    · intro htoken
      rw [hlayers.token, hlayers'.token, htoken]
    · intro key
      refine ⟨?_, ?_, hlayers.jobQueue_unique hlayers', hlayers.storage_unique hlayers'⟩
      · intro hgiven
        rw [hlayers.directives, hlayers'.directives, hgiven]
      · intro hgiven
        rw [hlayers.threads, hlayers'.threads, hgiven]

/-- A settings file that gives two addresses and a token for the job queue. -/
def queueText : List Char :=
  ("job_queue:\n  url: http://first/jobs\n  token: other\n  url: http://file/jobs\n" ++
    "threads:\n  comment_depth_limit: 9\n").toList

/-- The path of the settings file. -/
def queueConfig : Pathname := .ofText "config.yaml".toList

/-- A working folder with this file in it. -/
def queueFiles : Tree := Tree.empty.setFolder [] ⟨[("config.yaml", .file queueText)]⟩

/-- This folder in an environment with an address or none. -/
def queueSurroundings (url : Option String) : Surroundings where
  files := queueFiles
  environment := ⟨url, some "t0k3n"⟩
  clock := .utc .first
  answers := []

/-- What the file gives to the job queue. -/
theorem given?_queueText {document : Value}
    (h : queueFiles.Holds Yaml.read queueConfig document) :
    Ordinary document ∧ given? "job_queue" "url" document = some (.text "http://file/jobs") ∧
      given? "job_queue" "token" document = some (.text "other") := by
  have hcheck : (Yaml.read queueText).toOption.any (fun document =>
      sectionNames.all (fun name => (given? name wholeName document).isNone) &&
        (given? "job_queue" "url" document).any (·.same (.text "http://file/jobs")) &&
        (given? "job_queue" "token" document).any (·.same (.text "other"))) = true := by
    decide +kernel
  have hread : Yaml.read queueText = .ok document := by
    rcases h with hmissing | ⟨htext, hload⟩
    · cases hmissing
    · cases htext
      exact hload
  have htext : ∀ {given : Option Value} {text : String},
      given.any (·.same (.text text)) = true → given = some (.text text) := by
    intro given text hsame
    obtain ⟨value, rfl, hsame⟩ := (Option.any_eq_true _ _).mp hsame
    rw [Value.eq_text_of_same hsame]
  rw [hread] at hcheck
  simp only [Except.toOption, Option.any_some, Bool.and_eq_true, List.all_eq_true,
    Option.isNone_iff_eq_none] at hcheck
  exact ⟨hcheck.1.1, htext hcheck.1.2, htext hcheck.2⟩

/-- The file is loaded, whether or not the environment gives an address. -/
theorem exists_settings_queueText : ∀ url ∈ [some "http://queue/jobs", none], ∃ settings,
    (Command.loadSettings Yaml.read (queueSurroundings url) queueConfig
      (queueSurroundings url).start).1 = .ok settings := by
  have hloads : ∀ url ∈ [some "http://queue/jobs", none],
      (Command.loadSettings Yaml.read (queueSurroundings url) queueConfig
        (queueSurroundings url).start).1.isOk = true := by decide +kernel
  intro url hurl
  have hok := hloads url hurl
  cases hrun : (Command.loadSettings Yaml.read (queueSurroundings url) queueConfig
      (queueSurroundings url).start).1 with
  | ok settings => exact ⟨settings, rfl⟩
  | error failure =>
      rw [hrun] at hok
      cases hok

/-- The token of the environment is the token, and that of the file is no more than a further
attribute. The address of the environment goes before the last one of the file. -/
theorem layers_apart_override :
    (∃ settings, (Command.loadSettings Yaml.read (queueSurroundings (some "http://queue/jobs"))
        queueConfig (queueSurroundings (some "http://queue/jobs")).start).1 = .ok settings ∧
      settings.jobQueueToken = some "t0k3n" ∧
      settings.jobQueueUrl = .text "http://queue/jobs") ∧
    ∃ settings, (Command.loadSettings Yaml.read (queueSurroundings none) queueConfig
        (queueSurroundings none).start).1 = .ok settings ∧
      settings.jobQueueToken = some "t0k3n" ∧
      settings.jobQueueUrl = .text "http://file/jobs" ∧
      settings.jobQueue.get? "token" = some (.text "other") := by
  constructor
  · obtain ⟨settings, hsettings⟩ := exists_settings_queueText (some "http://queue/jobs") (by simp)
    obtain ⟨document, hholds, -, hlayers⟩ := layers_apart hsettings
    obtain ⟨hordinary, -, -⟩ := given?_queueText hholds
    obtain ⟨hlayered, -⟩ := hlayers hordinary
    refine ⟨settings, hsettings, hlayered.token, ?_⟩
    rw [jobQueueUrl, hlayered.address]
    rfl
  · obtain ⟨settings, hsettings⟩ := exists_settings_queueText none (by simp)
    obtain ⟨document, hholds, -, hlayers⟩ := layers_apart hsettings
    obtain ⟨hordinary, hurl, htoken⟩ := given?_queueText hholds
    obtain ⟨hlayered, -⟩ := hlayers hordinary
    refine ⟨settings, hsettings, hlayered.token, ?_, ?_⟩
    · rw [jobQueueUrl, hlayered.address, hurl]
      rfl
    · rw [hlayered.jobQueue "token" (by decide), htoken]
      rfl

end Settings
end Deferral
