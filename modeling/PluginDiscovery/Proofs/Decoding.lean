import PluginDiscovery.Proofs.Merging

/-!
# Reading regular settings

Regular settings can always be read: every entry that is visited is of the right kind, so none of
them is a failure. What is read has under each key what the settings give, and its default where
they give nothing (`ofEntries_of_regular`). A configuration that is written as settings is read back
as it was (`givenBy_toSetting`).
-/

namespace PluginDiscovery.Config

/-! ## Entries one by one -/

/-- Entries of distinct names are read one by one. If each of them decides what is read under its
own name and leaves the rest alone, every name is decided by the entry that has it. -/
theorem foldlM_by_name {σ ι β : Type} {step : σ → String × Setting → Except Failure σ}
    {read : σ → ι → β} {name : ι → String} (update : ι → Setting → β)
    {entries : List (String × Setting)} (hentries : Increasing entries)
    (hstep : ∀ state, ∀ entry ∈ entries, ∃ next, step state entry = .ok next ∧
      ∀ i, read next i = if name i = entry.1 then update i entry.2 else read state i)
    (start : σ) :
    ∃ final, entries.foldlM step start = .ok final ∧
      ∀ i, read final i =
        ((Entries.find? (name i) entries).map (update i)).getD (read start i) := by
  induction entries generalizing start with
  | nil => exact ⟨start, rfl, fun i => rfl⟩
  | cons entry rest ih =>
    obtain ⟨key, setting⟩ := entry
    obtain ⟨next, hnext, hread⟩ := hstep start (key, setting) List.mem_cons_self
    have hrest : Increasing rest := (List.pairwise_cons.1 hentries).2
    obtain ⟨final, hfinal, hdecided⟩ := ih hrest
      (fun state other hother => hstep state other (List.mem_cons_of_mem _ hother)) next
    refine ⟨final, ?_, fun i => ?_⟩
    · rw [List.foldlM_cons, hnext]
      exact hfinal
    · rw [hdecided, hread, Entries.find?_cons]
      by_cases hname : name i = key
      -- no later entry has the name, so what this one decides stays
      · rw [hname, Entries.find?_eq_none_of_increasing_cons hentries, if_pos rfl, if_pos rfl]
        rfl
      · rw [if_neg hname, if_neg hname]

theorem readText_of_text? {setting : Setting} {value : String} (h : setting.text? = some value)
    (expected : String) (path : List String) : readText expected path setting = .ok value := by
  unfold Setting.text? at h
  split at h
  · rw [← Option.some.inj h]
    rfl
  · cases h

theorem readPaths_of_mapM {items : List Setting} {values : List String}
    (h : items.mapM Setting.text? = some values) (origin : Origin) (path : List String) :
    readPaths path (.list origin items) = .ok values := by
  -- the numbers of the items only go into the paths of failures, so they may start anywhere
  have hitems : ∀ start : Nat, (items.zipIdx start).mapM (fun entry =>
      readText "path string" (path ++ [toString entry.2]) entry.1) = .ok values := by
    induction items generalizing values with
    | nil =>
      intro start
      rw [List.mapM_nil] at h
      rw [← Option.some.inj h]
      rfl
    | cons item rest ih =>
      intro start
      rw [List.mapM_cons] at h
      obtain ⟨value, hvalue, h⟩ := Option.bind_eq_some_iff.1 h
      obtain ⟨others, hothers, h⟩ := Option.bind_eq_some_iff.1 h
      rw [List.zipIdx_cons, ← Option.some.inj h]
      simp only [List.mapM_cons, readText_of_text? hvalue, ih hothers (start + 1)]
      rfl
  exact hitems 0

/-! ## Tables -/

variable {entries : List (String × Setting)}

/-- What is read under a key for a setting: its content, or else the default. -/
def contentOrDefault (key : Key) (setting : Setting) : Content :=
  (key.content? setting).getD (get {} key)

theorem exists_text_of_content? {key : Key} {setting : Setting} (hkey : key ≠ .searchPath)
    (h : (key.content? setting).isSome) :
    ∃ value, setting.text? = some value ∧ contentOrDefault key setting = .text value := by
  have hcontent : key.content? setting = setting.text?.map .text := by
    cases key <;> first | rfl | exact absurd rfl hkey
  rw [hcontent, Option.isSome_map] at h
  obtain ⟨value, hvalue⟩ := Option.isSome_iff_exists.1 h
  refine ⟨value, hvalue, ?_⟩
  rw [contentOrDefault, hcontent, hvalue]
  rfl

theorem exists_paths_of_content? {setting : Setting} (h : (Key.searchPath.content? setting).isSome)
    (path : List String) :
    ∃ values, readPaths path setting = .ok values ∧
      contentOrDefault .searchPath setting = .paths values := by
  cases setting with
  | list origin items =>
    have hcontent : Key.searchPath.content? (.list origin items) =
        (items.mapM Setting.text?).map .paths := rfl
    rw [hcontent, Option.isSome_map] at h
    obtain ⟨values, hvalues⟩ := Option.isSome_iff_exists.1 h
    refine ⟨values, readPaths_of_mapM hvalues origin path, ?_⟩
    rw [contentOrDefault, hcontent, hvalues]
    rfl
  | _ => cases h

theorem Discovery.readKey_of_content? {key : Key} {setting : Setting}
    (htable : key.table = "discovery") (h : (key.content? setting).isSome) (d : Discovery) :
    ∃ next, d.readKey (key.word, setting) = .ok next ∧
      ∀ other, get { discovery := next } other =
        if other.word = key.word then contentOrDefault other setting
        else get { discovery := d } other := by
  cases key with
  | interfaceManifest =>
    obtain ⟨value, hvalue, hcontent⟩ := exists_text_of_content? (by decide) h
    refine ⟨{ d with interfaceManifest := value }, ?_, fun other => ?_⟩
    · simp only [readKey, Key.word, readText_of_text? hvalue]
      rfl
    · cases other <;> simp [get, Key.word, hcontent]
  | implementationManifest =>
    obtain ⟨value, hvalue, hcontent⟩ := exists_text_of_content? (by decide) h
    refine ⟨{ d with implementationManifest := value }, ?_, fun other => ?_⟩
    · simp only [readKey, Key.word, readText_of_text? hvalue]
      rfl
    · cases other <;> simp [get, Key.word, hcontent]
  | searchPath =>
    obtain ⟨values, hvalues, hcontent⟩ := exists_paths_of_content? h (pathOf "search_path")
    refine ⟨{ d with searchPath := values }, ?_, fun other => ?_⟩
    · simp only [readKey, Key.word, hvalues]
      rfl
    · cases other <;> simp [get, Key.word, hcontent]
  | standardNamespace =>
    obtain ⟨value, hvalue, hcontent⟩ := exists_text_of_content? (by decide) h
    refine ⟨{ d with standardNamespace := value }, ?_, fun other => ?_⟩
    · simp only [readKey, Key.word, readText_of_text? hvalue]
      rfl
    · cases other <;> simp [get, Key.word, hcontent]
  | filter => exact absurd htable (by decide)

theorem Logging.readKey_of_content? {key : Key} {setting : Setting}
    (htable : key.table = "logging") (h : (key.content? setting).isSome) (l : Logging) :
    ∃ next, l.readKey (key.word, setting) = .ok next ∧
      ∀ other, get { logging := next } other =
        if other.word = key.word then contentOrDefault other setting
        else get { logging := l } other := by
  cases key with
  | filter =>
    obtain ⟨value, hvalue, hcontent⟩ := exists_text_of_content? (by decide) h
    refine ⟨{ l with filter := value }, ?_, fun other => ?_⟩
    · simp only [readKey, Key.word, readText_of_text? hvalue]
      rfl
    · cases other <;> simp [get, Key.word, hcontent]
  | _ => exact absurd htable (by decide)

/-- A table is read key by key into its part of the configuration. -/
theorem foldlM_of_regularTable {σ : Type} {readKey : σ → String × Setting → Except Failure σ}
    {name : String} (whole : σ → Config) (h : RegularTable name entries)
    (hread : ∀ {key : Key} {setting}, key.table = name → (key.content? setting).isSome →
      ∀ state, ∃ next, readKey state (key.word, setting) = .ok next ∧
        ∀ other, get (whole next) other =
          if other.word = key.word then contentOrDefault other setting
          else get (whole state) other)
    {start : σ} (hstart : whole start = {}) :
    ∃ final, entries.foldlM readKey start = .ok final ∧
      ∀ key, get (whole final) key = (givenIn entries key).getD (get {} key) := by
  have hstep : ∀ state, ∀ entry ∈ entries, ∃ next, readKey state entry = .ok next ∧
      ∀ key : Key, get (whole next) key =
        if key.word = entry.1 then contentOrDefault key entry.2 else get (whole state) key := by
    rintro state ⟨word, setting⟩ hentry
    have hfind := (Entries.find?_eq_some_iff h.increasing).2 hentry
    obtain ⟨key, htable, rfl, hsome⟩ := h.known word setting hfind
    exact hread htable hsome state
  obtain ⟨final, hfinal, hdecided⟩ := foldlM_by_name contentOrDefault h.increasing hstep start
  refine ⟨final, hfinal, fun key => (hdecided key).trans ?_⟩
  rw [hstart]
  unfold givenIn contentOrDefault
  cases Entries.find? key.word entries <;> rfl

theorem Discovery.read_of_regularTable (h : RegularTable "discovery" entries) (origin : Origin) :
    ∃ d, Discovery.read (.table origin entries) = .ok d ∧
      ∀ key, get { discovery := d } key = (givenIn entries key).getD (get {} key) :=
  foldlM_of_regularTable (fun d => { discovery := d }) h readKey_of_content? rfl

theorem Logging.read_of_regularTable (h : RegularTable "logging" entries) (origin : Origin) :
    ∃ l, Logging.read (.table origin entries) = .ok l ∧
      ∀ key, get { logging := l } key = (givenIn entries key).getD (get {} key) :=
  foldlM_of_regularTable (fun l => { logging := l }) h readKey_of_content? rfl

/-! ## The whole configuration -/

/-- A table that is read decides its own keys and leaves those of the other one alone. -/
theorem readSection_of_regularTable {name : String} (hname : name ∈ sections)
    (h : RegularTable name entries) (origin : Origin) (config : Config) :
    ∃ next, readSection config (name, .table origin entries) = .ok next ∧
      ∀ key : Key, get next key =
        if key.table = name then (givenIn entries key).getD (get {} key) else get config key := by
  have hnames : name = "discovery" ∨ name = "logging" := by
    simpa [sections] using hname
  rcases hnames with rfl | rfl
  · obtain ⟨d, hd, hread⟩ := Discovery.read_of_regularTable h origin
    refine ⟨{ config with discovery := d }, ?_, fun key => ?_⟩
    · simp only [readSection, hd]
      rfl
    · rw [← hread]
      cases key <;> rfl
  · obtain ⟨l, hl, hread⟩ := Logging.read_of_regularTable h origin
    refine ⟨{ config with logging := l }, ?_, fun key => ?_⟩
    · simp only [readSection, hl]
      rfl
    · rw [← hread]
      cases key <;> rfl

/-- Regular settings are read without failure, and what is read has under each key what they give or
else the default. -/
theorem ofEntries_of_regular (h : Regular entries) :
    ∃ config, ofEntries entries = .ok config ∧
      ∀ key, get config key = (given entries key).getD (get {} key) := by
  have hstep : ∀ state, ∀ entry ∈ entries, ∃ next, readSection state entry = .ok next ∧
      ∀ key : Key, get next key =
        if key.table = entry.1 then (givenUnder key entry.2).getD (get {} key)
        else get state key := by
    rintro state ⟨name, setting⟩ hentry
    have hfind := (Entries.find?_eq_some_iff h.increasing).2 hentry
    obtain ⟨hname, origin, inner, rfl, hinner⟩ := h.tables name setting hfind
    exact readSection_of_regularTable hname hinner origin state
  obtain ⟨config, hconfig, hread⟩ := foldlM_by_name
    (fun key setting => (givenUnder key setting).getD (get {} key)) h.increasing hstep {}
  refine ⟨config, hconfig, fun key => (hread key).trans ?_⟩
  unfold given
  cases Entries.find? key.table entries <;> rfl

/-! ## Configurations as settings -/

theorem mapM_text?_defaultText (values : List String) :
    (values.map defaultText).mapM Setting.text? = some values := by
  induction values with
  | nil => rfl
  | cons value rest ih =>
    rw [List.map_cons, List.mapM_cons, ih]
    rfl

theorem content?_defaultPaths (values : List String) :
    Key.searchPath.content? (.list defaultsOrigin (values.map defaultText)) =
      some (.paths values) := by
  simp only [Key.content?, mapM_text?_defaultText]
  rfl

/-- The settings of a configuration give what it has under every key. -/
theorem givenBy_toSetting (config : Config) (key : Key) :
    givenBy key (toSetting config) = some (get config key) := by
  cases key with
  | searchPath => exact content?_defaultPaths config.discovery.searchPath
  | _ => rfl

theorem regularTable_discovery (d : Discovery) :
    ∃ inner, d.toSetting = .table defaultsOrigin inner ∧ RegularTable "discovery" inner := by
  refine ⟨_, rfl, .of_mem ?_ ?_⟩
  · have hnames : ["implementation_manifest", "interface_manifest", "search_path",
        "standard_namespace"].Pairwise (· < ·) := by decide
    exact List.pairwise_map.1 hnames
  · have hpaths := content?_defaultPaths d.searchPath
    simp only [List.forall_mem_cons]
    exact ⟨⟨.implementationManifest, rfl, rfl, rfl⟩, ⟨.interfaceManifest, rfl, rfl, rfl⟩,
      ⟨.searchPath, rfl, rfl, Option.isSome_of_eq_some hpaths⟩,
      ⟨.standardNamespace, rfl, rfl, rfl⟩, List.forall_mem_nil _⟩

theorem regularTable_logging (l : Logging) :
    ∃ inner, l.toSetting = .table defaultsOrigin inner ∧ RegularTable "logging" inner := by
  refine ⟨_, rfl, .of_mem (List.pairwise_singleton _ _) ?_⟩
  intro entry hentry
  rw [List.mem_singleton.1 hentry]
  exact ⟨.filter, rfl, rfl, rfl⟩

theorem regularSetting_toSetting (config : Config) : RegularSetting (toSetting config) := by
  have hnames : ["discovery", "logging"].Pairwise (· < ·) := by decide
  refine ⟨_, _, rfl, .of_mem (List.pairwise_map.1 hnames) ?_⟩
  simp only [List.forall_mem_cons]
  exact ⟨⟨Key.searchPath.table_mem_sections, _, regularTable_discovery config.discovery⟩,
    ⟨Key.filter.table_mem_sections, _, regularTable_logging config.logging⟩,
    List.forall_mem_nil _⟩

end PluginDiscovery.Config
