import ReleaseFlow.Proofs.Toml.Settings

/-!
# Settings key by key

A document gives the settings by sixteen keys in three sections. Every setting is the value of its
key, or else its default, whatever the document has elsewhere.

* `LabelClasses.GivenBy`, `ReleaseSettings.GivenBy`, `RegressionSettings.GivenBy`: the sections;
* `Config.Key`, `Key.at?`, `Key.Fits`: the keys, what a document has at them, and what they take;
* `Config.value?`: the value by which a document gives a setting;
* `Config.givenBy_iff`: **the settings of a document, key by key**;
* `Config.exists_givenBy_iff`: the documents that have settings;
* `Config.parse_frame`, `Config.parse_congr`: a change at one key, and a change at none;
* `Config.keys_independent`: **no key bears on the setting of another**.
-/

namespace ReleaseFlow

open Toml

variable {origin : Origin} {entries : Entries}

/-! ## The three sections -/

/-- The classes are those that the entries of a section give. -/
def LabelClasses.GivenBy (entries : Entries) (c : LabelClasses) : Prop :=
  Gives entries "major" (some (ofTexts defaultMajor)) (some (ofTexts c.major)) ∧
  Gives entries "patch" (some (ofTexts defaultPatch)) (some (ofTexts c.patch))

theorem LabelClasses.ofToml?_eq_some_iff {c : LabelClasses} :
    ofToml? (.table origin entries) = some c ↔ c.GivenBy entries := by
  unfold ofToml?
  simp only [Option.bind_eq_bind, Option.bind_eq_some_iff, setting_eq_some_iff reads_texts]
  constructor
  · rintro ⟨major, hmajor, patch, hpatch, heq⟩
    cases heq
    exact ⟨hmajor, hpatch⟩
  · rintro ⟨hmajor, hpatch⟩
    exact ⟨_, hmajor, _, hpatch, rfl⟩

theorem LabelClasses.exists_givenBy
    (hmajor : ∀ v, entries.lookup "major" = some v → ∃ texts, ofTexts texts = v)
    (hpatch : ∀ v, entries.lookup "patch" = some v → ∃ texts, ofTexts texts = v) :
    ∃ c : LabelClasses, c.GivenBy entries := by
  obtain ⟨major, hmajor⟩ := exists_gives hmajor defaultMajor
  obtain ⟨patch, hpatch⟩ := exists_gives hpatch defaultPatch
  exact ⟨⟨major, patch⟩, hmajor, hpatch⟩

/-- The settings are those that the entries of a section give. -/
def ReleaseSettings.GivenBy (entries : Entries) (s : ReleaseSettings) : Prop :=
  Gives entries "variable" (some (.string defaultVariable)) (some (.string s.versionVariable)) ∧
  Gives entries "branch" (some (.string defaultBranch)) (some (.string s.branch)) ∧
  Gives entries "tag_pattern" (some (.string defaultTagPattern)) (some (.string s.tagPattern)) ∧
  Gives entries "notes_config" (some (.string defaultNotesConfig)) (some (.string s.notesConfig)) ∧
  Gives entries "draft" (some (.boolean true)) (some (.boolean s.draft))

theorem ReleaseSettings.ofToml?_eq_some_iff {s : ReleaseSettings} :
    ofToml? (.table origin entries) = some s ↔ s.GivenBy entries := by
  unfold ofToml?
  simp only [Option.bind_eq_bind, Option.bind_eq_some_iff, setting_eq_some_iff reads_text,
    setting_eq_some_iff reads_boolean]
  constructor
  · rintro ⟨_, hvariable, _, hbranch, _, hpattern, _, hnotes, _, hdraft, heq⟩
    cases heq
    exact ⟨hvariable, hbranch, hpattern, hnotes, hdraft⟩
  · rintro ⟨hvariable, hbranch, hpattern, hnotes, hdraft⟩
    exact ⟨_, hvariable, _, hbranch, _, hpattern, _, hnotes, _, hdraft, rfl⟩

theorem ReleaseSettings.exists_givenBy
    (hvariable : ∀ v, entries.lookup "variable" = some v → ∃ s, Toml.string s = v)
    (hbranch : ∀ v, entries.lookup "branch" = some v → ∃ s, Toml.string s = v)
    (hpattern : ∀ v, entries.lookup "tag_pattern" = some v → ∃ s, Toml.string s = v)
    (hnotes : ∀ v, entries.lookup "notes_config" = some v → ∃ s, Toml.string s = v)
    (hdraft : ∀ v, entries.lookup "draft" = some v → ∃ b, Toml.boolean b = v) :
    ∃ s : ReleaseSettings, s.GivenBy entries := by
  obtain ⟨versionVariable, hvariable⟩ := exists_gives hvariable defaultVariable
  obtain ⟨branch, hbranch⟩ := exists_gives hbranch defaultBranch
  obtain ⟨tagPattern, hpattern⟩ := exists_gives hpattern defaultTagPattern
  obtain ⟨notesConfig, hnotes⟩ := exists_gives hnotes defaultNotesConfig
  obtain ⟨draft, hdraft⟩ := exists_gives hdraft true
  exact ⟨⟨versionVariable, branch, tagPattern, notesConfig, draft⟩,
    hvariable, hbranch, hpattern, hnotes, hdraft⟩

/-- The settings are those that the entries of a section give. -/
def RegressionSettings.GivenBy (entries : Entries) (s : RegressionSettings) : Prop :=
  Gives entries "owner" none (s.owner.map .string) ∧
  Gives entries "repo" none (s.repo.map .string) ∧
  Gives entries "workflow" (some (.string defaultWorkflow)) (some (.string s.workflow)) ∧
  Gives entries "ref" (some (.string defaultRef)) (some (.string s.ref)) ∧
  Gives entries "job_name" (some (.string defaultJobName)) (some (.string s.jobName)) ∧
  Gives entries "initial_delay_secs" (some (ofNumber defaultInitialDelay))
    (some (ofNumber s.initialDelay)) ∧
  Gives entries "discovery_interval_secs" (some (ofNumber defaultDiscoveryInterval))
    (some (ofNumber s.discoveryInterval)) ∧
  Gives entries "poll_interval_secs" (some (ofNumber defaultPollInterval))
    (some (ofNumber s.pollInterval)) ∧
  Gives entries "timeout_secs" (some (ofNumber defaultTimeout)) (some (ofNumber s.timeout))

theorem RegressionSettings.ofToml?_eq_some_iff {s : RegressionSettings} :
    ofToml? (.table origin entries) = some s ↔ s.GivenBy entries := by
  unfold ofToml?
  simp only [Option.bind_eq_bind, Option.bind_eq_some_iff, setting_eq_some_iff reads_text,
    setting_eq_some_iff reads_optional, setting_eq_some_iff reads_number]
  constructor
  · rintro ⟨_, howner, _, hrepo, _, hworkflow, _, href, _, hjob, _, hdelay, _, hdiscovery, _,
      hpoll, _, htimeout, heq⟩
    cases heq
    exact ⟨howner, hrepo, hworkflow, href, hjob, hdelay, hdiscovery, hpoll, htimeout⟩
  · rintro ⟨howner, hrepo, hworkflow, href, hjob, hdelay, hdiscovery, hpoll, htimeout⟩
    exact ⟨_, howner, _, hrepo, _, hworkflow, _, href, _, hjob, _, hdelay, _, hdiscovery, _,
      hpoll, _, htimeout, rfl⟩

theorem RegressionSettings.exists_givenBy
    (howner : ∀ v, entries.lookup "owner" = some v → ∃ s, Toml.string s = v)
    (hrepo : ∀ v, entries.lookup "repo" = some v → ∃ s, Toml.string s = v)
    (hworkflow : ∀ v, entries.lookup "workflow" = some v → ∃ s, Toml.string s = v)
    (href : ∀ v, entries.lookup "ref" = some v → ∃ s, Toml.string s = v)
    (hjob : ∀ v, entries.lookup "job_name" = some v → ∃ s, Toml.string s = v)
    (hdelay : ∀ v, entries.lookup "initial_delay_secs" = some v → ∃ n, ofNumber n = v)
    (hdiscovery : ∀ v, entries.lookup "discovery_interval_secs" = some v → ∃ n, ofNumber n = v)
    (hpoll : ∀ v, entries.lookup "poll_interval_secs" = some v → ∃ n, ofNumber n = v)
    (htimeout : ∀ v, entries.lookup "timeout_secs" = some v → ∃ n, ofNumber n = v) :
    ∃ s : RegressionSettings, s.GivenBy entries := by
  obtain ⟨owner, howner⟩ := exists_gives_optional howner
  obtain ⟨repo, hrepo⟩ := exists_gives_optional hrepo
  obtain ⟨workflow, hworkflow⟩ := exists_gives hworkflow defaultWorkflow
  obtain ⟨ref, href⟩ := exists_gives href defaultRef
  obtain ⟨jobName, hjob⟩ := exists_gives hjob defaultJobName
  obtain ⟨initialDelay, hdelay⟩ := exists_gives hdelay defaultInitialDelay
  obtain ⟨discoveryInterval, hdiscovery⟩ := exists_gives hdiscovery defaultDiscoveryInterval
  obtain ⟨pollInterval, hpoll⟩ := exists_gives hpoll defaultPollInterval
  obtain ⟨timeout, htimeout⟩ := exists_gives htimeout defaultTimeout
  exact ⟨⟨owner, repo, workflow, ref, jobName, initialDelay, discoveryInterval, pollInterval,
    timeout⟩, howner, hrepo, hworkflow, href, hjob, hdelay, hdiscovery, hpoll, htimeout⟩

namespace Config

/-! ## The sixteen keys -/

/-- The keys of the settings. -/
inductive Key where
  | majorLabels
  | patchLabels
  | versionVariable
  | branch
  | tagPattern
  | notesConfig
  | draft
  | owner
  | repo
  | workflow
  | ref
  | jobName
  | initialDelay
  | discoveryInterval
  | pollInterval
  | timeout
  deriving DecidableEq, Repr

namespace Key

/-- The section of the key and its name there. -/
def place : Key → String × String
  | majorLabels => ("labels", "major")
  | patchLabels => ("labels", "patch")
  | versionVariable => ("release", "variable")
  | branch => ("release", "branch")
  | tagPattern => ("release", "tag_pattern")
  | notesConfig => ("release", "notes_config")
  | draft => ("release", "draft")
  | owner => ("regression", "owner")
  | repo => ("regression", "repo")
  | workflow => ("regression", "workflow")
  | ref => ("regression", "ref")
  | jobName => ("regression", "job_name")
  | initialDelay => ("regression", "initial_delay_secs")
  | discoveryInterval => ("regression", "discovery_interval_secs")
  | pollInterval => ("regression", "poll_interval_secs")
  | timeout => ("regression", "timeout_secs")

/-- The value is of the kind that the key takes: texts, a truth value, a number or a text. -/
def Fits : Key → Toml → Prop
  | majorLabels, v | patchLabels, v => ∃ texts, ofTexts texts = v
  | versionVariable, v | branch, v | tagPattern, v | notesConfig, v => ∃ s, Toml.string s = v
  | draft, v => ∃ b, Toml.boolean b = v
  | owner, v | repo, v | workflow, v | ref, v | jobName, v => ∃ s, Toml.string s = v
  | initialDelay, v | discoveryInterval, v | pollInterval, v | timeout, v => ∃ n, ofNumber n = v

/-- What the document has at the key. -/
def at? (k : Key) (document : Entries) : Option Toml :=
  (under k.place.1 document).lookup k.place.2

end Key

/-- The value by which a document gives the setting. For what is set to nothing there is none. -/
def value? (c : Config) : Key → Option Toml
  | .majorLabels => some (ofTexts c.labels.major)
  | .patchLabels => some (ofTexts c.labels.patch)
  | .versionVariable => some (.string c.release.versionVariable)
  | .branch => some (.string c.release.branch)
  | .tagPattern => some (.string c.release.tagPattern)
  | .notesConfig => some (.string c.release.notesConfig)
  | .draft => some (.boolean c.release.draft)
  | .owner => c.regression.owner.map .string
  | .repo => c.regression.repo.map .string
  | .workflow => some (.string c.regression.workflow)
  | .ref => some (.string c.regression.ref)
  | .jobName => some (.string c.regression.jobName)
  | .initialDelay => some (ofNumber c.regression.initialDelay)
  | .discoveryInterval => some (ofNumber c.regression.discoveryInterval)
  | .pollInterval => some (ofNumber c.regression.pollInterval)
  | .timeout => some (ofNumber c.regression.timeout)

variable {document document' : Entries} {c c' : Config} {k : Key} {v : Toml} {text text' : String}

theorem ext_value? (h : ∀ k, c.value? k = c'.value? k) : c = c' := by
  obtain ⟨⟨_, _⟩, ⟨_, _, _, _, _⟩, ⟨_, _, _, _, _, _, _, _, _⟩⟩ := c
  obtain ⟨⟨_, _⟩, ⟨_, _, _, _, _⟩, ⟨_, _, _, _, _, _, _, _, _⟩⟩ := c'
  simp only [Config.mk.injEq, LabelClasses.mk.injEq, ReleaseSettings.mk.injEq,
    RegressionSettings.mk.injEq]
  exact ⟨⟨reads_texts.injective (h .majorLabels), reads_texts.injective (h .patchLabels)⟩,
    ⟨reads_text.injective (h .versionVariable), reads_text.injective (h .branch),
      reads_text.injective (h .tagPattern), reads_text.injective (h .notesConfig),
      reads_boolean.injective (h .draft)⟩,
    reads_optional.injective (h .owner), reads_optional.injective (h .repo),
    reads_text.injective (h .workflow), reads_text.injective (h .ref),
    reads_text.injective (h .jobName), reads_number.injective (h .initialDelay),
    reads_number.injective (h .discoveryInterval), reads_number.injective (h .pollInterval),
    reads_number.injective (h .timeout)⟩

theorem fits_of_value? (h : c.value? k = some v) : k.Fits v := by
  cases k with
  | owner | repo =>
    obtain ⟨s, -, hs⟩ := Option.map_eq_some_iff.1 h
    exact ⟨s, hs⟩
  | _ => exact ⟨_, Option.some.inj h⟩

/-! ## Documents -/

/-- The sections of the settings are tables, where they are there. -/
def Sectioned (document : Entries) : Prop :=
  ∀ (k : Key) (v : Toml), document.lookup k.place.1 = some v → ∃ o inner, v = .table o inner

/-- The settings are those that the sections of a document give. -/
structure GivenBy (document : Entries) (c : Config) : Prop where
  labels : c.labels.GivenBy (under "labels" document)
  release : c.release.GivenBy (under "release" document)
  regression : c.regression.GivenBy (under "regression" document)

theorem ofToml?_eq_some_iff (hdocument : Sectioned document) :
    ofToml? (.table origin document) = some c ↔ c.GivenBy document := by
  have hlabels : ∀ a, (Toml.table origin document).setting LabelClasses.ofToml? {} "labels" 0 =
      some a ↔ a.GivenBy (under "labels" document) := fun a =>
    setting_under_iff (fun _ _ _ => LabelClasses.ofToml?_eq_some_iff) rfl (hdocument .majorLabels)
  have hrelease : ∀ a, (Toml.table origin document).setting ReleaseSettings.ofToml? {} "release" 1 =
      some a ↔ a.GivenBy (under "release" document) := fun a =>
    setting_under_iff (fun _ _ _ => ReleaseSettings.ofToml?_eq_some_iff) rfl (hdocument .branch)
  have hregression : ∀ a,
      (Toml.table origin document).setting RegressionSettings.ofToml? {} "regression" 2 =
        some a ↔ a.GivenBy (under "regression" document) := fun a =>
    setting_under_iff (fun _ _ _ => RegressionSettings.ofToml?_eq_some_iff) rfl (hdocument .owner)
  unfold ofToml?
  simp only [Option.bind_eq_bind, Option.bind_eq_some_iff, hlabels, hrelease, hregression]
  constructor
  · rintro ⟨labels, hl, release, hr, regression, hg, heq⟩
    cases heq
    exact ⟨hl, hr, hg⟩
  · intro h
    exact ⟨_, h.labels, _, h.release, _, h.regression, rfl⟩

/-- **The settings of a document, key by key.** Each is what the document has at its key, or else
its default. -/
theorem givenBy_iff : c.GivenBy document ↔
    ∀ k : Key, c.value? k = (k.at? document).or (({} : Config).value? k) := by
  -- At each key, the equation is what its section says under its name.
  constructor
  · rintro ⟨⟨hmajor, hpatch⟩, ⟨hvariable, hbranch, hpattern, hnotes, hdraft⟩,
      ⟨howner, hrepo, hworkflow, href, hjob, hdelay, hdiscovery, hpoll, htimeout⟩⟩ k
    cases k with
    | majorLabels => exact hmajor
    | patchLabels => exact hpatch
    | versionVariable => exact hvariable
    | branch => exact hbranch
    | tagPattern => exact hpattern
    | notesConfig => exact hnotes
    | draft => exact hdraft
    | owner => exact howner
    | repo => exact hrepo
    | workflow => exact hworkflow
    | ref => exact href
    | jobName => exact hjob
    | initialDelay => exact hdelay
    | discoveryInterval => exact hdiscovery
    | pollInterval => exact hpoll
    | timeout => exact htimeout
  · intro h
    exact ⟨⟨h .majorLabels, h .patchLabels⟩,
      ⟨h .versionVariable, h .branch, h .tagPattern, h .notesConfig, h .draft⟩,
      ⟨h .owner, h .repo, h .workflow, h .ref, h .jobName, h .initialDelay, h .discoveryInterval,
        h .pollInterval, h .timeout⟩⟩

theorem exists_givenBy_iff : (∃ c : Config, c.GivenBy document) ↔
    ∀ (k : Key) (v : Toml), k.at? document = some v → k.Fits v := by
  constructor
  · rintro ⟨c, hc⟩ k v hv
    have hk := givenBy_iff.1 hc k
    rw [hv, Option.some_or] at hk
    exact fits_of_value? hk
  · intro h
    obtain ⟨labels, hl⟩ := LabelClasses.exists_givenBy (h .majorLabels) (h .patchLabels)
    obtain ⟨release, hr⟩ := ReleaseSettings.exists_givenBy (h .versionVariable) (h .branch)
      (h .tagPattern) (h .notesConfig) (h .draft)
    obtain ⟨regression, hg⟩ := RegressionSettings.exists_givenBy (h .owner) (h .repo) (h .workflow)
      (h .ref) (h .jobName) (h .initialDelay) (h .discoveryInterval) (h .pollInterval) (h .timeout)
    exact ⟨⟨labels, release, regression⟩, hl, hr, hg⟩

/-! ## Texts -/

/-- The text is the document, and the document has its sections as tables. -/
structure Writes (text : String) (document : Entries) : Prop where
  read : Toml.read text = some (.table .header document)
  sectioned : Sectioned document

theorem exists_read (h : parse text = .ok c) :
    ∃ document, Toml.read text = some (.table .header document) := by
  unfold parse at h
  split at h
  · cases h
  · next t ht =>
    obtain ⟨statements, -, hd⟩ := Option.bind_eq_some_iff.1 ht
    obtain ⟨d, -, rfl⟩ := Option.map_eq_some_iff.1 hd
    exact ⟨d.entries, ht⟩

theorem parse_eq_ok_iff (h : Writes text document) : parse text = .ok c ↔ c.GivenBy document := by
  have hiff : ofToml? (.table .header document) = some c ↔ c.GivenBy document :=
    ofToml?_eq_some_iff h.sectioned
  rw [← hiff, parse, h.read]
  dsimp only
  cases ofToml? (.table .header document) with
  | none => simp
  | some c => simp

theorem exists_parse_iff (h : Writes text document) : (∃ c, parse text = .ok c) ↔
    ∀ (k : Key) (v : Toml), k.at? document = some v → k.Fits v := by
  rw [← exists_givenBy_iff]
  exact exists_congr fun _ => parse_eq_ok_iff h

/-- What a document has elsewhere than at the keys is nothing to its settings. -/
theorem parse_congr (h : Writes text document) (h' : Writes text' document')
    (hsame : ∀ k : Key, k.at? document' = k.at? document) (hc : parse text = .ok c) :
    parse text' = .ok c := by
  rw [parse_eq_ok_iff h, givenBy_iff] at hc
  rw [parse_eq_ok_iff h', givenBy_iff]
  intro k
  rw [hsame, hc]

theorem parse_frame (h : Writes text document) (h' : Writes text' document')
    (hc : parse text = .ok c) (hothers : ∀ k', k' ≠ k → k'.at? document' = k'.at? document)
    (hfits : ∀ v, k.at? document' = some v → k.Fits v) :
    ∃ c', parse text' = .ok c' ∧ ∀ k', k' ≠ k → c'.value? k' = c.value? k' := by
  have hall := (exists_parse_iff h).1 ⟨c, hc⟩
  -- The new document has settings: at the other keys it has what fitted before.
  have hall' : ∀ (k' : Key) (v : Toml), k'.at? document' = some v → k'.Fits v := by
    intro k' v hv
    by_cases hk : k' = k
    · subst hk
      exact hfits v hv
    · exact hall k' v (hothers k' hk ▸ hv)
  obtain ⟨c', hc'⟩ := (exists_parse_iff h').2 hall'
  refine ⟨c', hc', fun k' hk => ?_⟩
  rw [givenBy_iff.1 ((parse_eq_ok_iff h').1 hc') k', givenBy_iff.1 ((parse_eq_ok_iff h).1 hc) k',
    hothers k' hk]

/-- **No key bears on the setting of another.** The sixteen settings are what the document has at
the sixteen keys, or else the defaults, whether a section lacks the key or is missing. A document
is refused for nothing but a value that does not fit its key. A change at one key changes that
setting alone, and what is at no key changes nothing. -/
theorem keys_independent :
    (∀ c c' : Config, (∀ k, c.value? k = c'.value? k) → c = c') ∧
    (∀ (text : String) (c : Config), parse text = .ok c →
      ∃ document, Toml.read text = some (.table .header document)) ∧
    ∀ (text : String) (document : Entries), Writes text document →
      (∀ c, parse text = .ok c →
        ∀ k : Key, c.value? k = (k.at? document).or (({} : Config).value? k)) ∧
      ((∃ c, parse text = .ok c) ↔
        ∀ (k : Key) (v : Toml), k.at? document = some v → k.Fits v) ∧
      ∀ c, parse text = .ok c → ∀ (text' : String) (document' : Entries), Writes text' document' →
        (∀ k : Key, (∀ k', k' ≠ k → k'.at? document' = k'.at? document) →
          (∀ v, k.at? document' = some v → k.Fits v) →
          ∃ c', parse text' = .ok c' ∧ ∀ k', k' ≠ k → c'.value? k' = c.value? k') ∧
        ((∀ k : Key, k.at? document' = k.at? document) → parse text' = .ok c) := by
  refine ⟨fun _ _ => ext_value?, fun _ _ => exists_read, fun text document h => ?_⟩
  refine ⟨fun c hc => givenBy_iff.1 ((parse_eq_ok_iff h).1 hc), exists_parse_iff h, ?_⟩
  intro c hc text' document' h'
  exact ⟨fun k => parse_frame h h' hc, fun hsame => parse_congr h h' hsame hc⟩

/-- A branch is set. Then a draft is asked for, and then what no setting is called. -/
theorem keys_independent_edited :
    (∀ k : Key, value? { release := { branch := "main" } } k =
      (k.at? [("release", .table .header [("branch", .string "main")])]).or
        (({} : Config).value? k)) ∧
    parse "[release]\nbranch = \"main\"\n" = .ok { release := { branch := "main" } } ∧
    (∃ c, parse "[release]\nbranch = \"main\"\ndraft = false\n" = .ok c ∧
      ∀ k : Key, k ≠ .draft → c.value? k = value? { release := { branch := "main" } } k) ∧
    parse "extra = 1\n[release]\nbranch = \"main\"\ncolor = \"red\"\n[other]\n" =
      .ok { release := { branch := "main" } } := by
  have h : Writes "[release]\nbranch = \"main\"\n"
      [("release", .table .header [("branch", .string "main")])] :=
    ⟨rfl, fun k v hv => by cases k <;> cases hv <;> exact ⟨_, _, rfl⟩⟩
  have hdraft : Writes "[release]\nbranch = \"main\"\ndraft = false\n"
      [("release", .table .header [("branch", .string "main"), ("draft", .boolean false)])] :=
    ⟨rfl, fun k v hv => by cases k <;> cases hv <;> exact ⟨_, _, rfl⟩⟩
  have hunknown : Writes "extra = 1\n[release]\nbranch = \"main\"\ncolor = \"red\"\n[other]\n"
      [("extra", .integer 1),
        ("release", .table .header [("branch", .string "main"), ("color", .string "red")]),
        ("other", .table .header [])] :=
    ⟨rfl, fun k v hv => by cases k <;> cases hv <;> exact ⟨_, _, rfl⟩⟩
  have hc : parse "[release]\nbranch = \"main\"\n" = .ok { release := { branch := "main" } } := rfl
  obtain ⟨hvalue, -, hchange⟩ := keys_independent.2.2 _ _ h
  refine ⟨hvalue _ hc, hc, ?_, ?_⟩
  · refine (hchange _ hc _ _ hdraft).1 .draft (fun k hk => ?_) fun v hv => ?_
    · cases k <;> first | rfl | exact absurd rfl hk
    · cases hv
      exact ⟨_, rfl⟩
  · refine (hchange _ hc _ _ hunknown).2 fun k => ?_
    cases k <;> rfl

end Config

end ReleaseFlow
