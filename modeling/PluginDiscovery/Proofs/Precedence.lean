import Mathlib
import PluginDiscovery.Config.Load
import PluginDiscovery.Proofs.Decoding

/-!
# Which layer decides

A configuration is loaded in layers. Where every layer is regular, loading succeeds, and each key is
decided on its own: it has what the last layer gives that gives it anything, and else its default
(`ofLayers_of_regular`).

The layers themselves are told by what they are made of. A document is regular if it holds nothing
but known keys, each with a value of its kind. A variable of the environment is regular if it sets
nothing or is named for a key, in letters of either case, and has a value of its kind. The main
statement, `Hierarchy.load_by_precedence`, puts these together for the files of the system, of the
user and of the working folder, and the environment.
-/

namespace PluginDiscovery.Config

/-! ## Layers -/

/-- The settings of a layer, if it can be read. -/
def settingOf? : Layer → Option Setting
  | .ok setting => some setting
  | .error _ => none

/-- Why a layer cannot be read, if it cannot. -/
def failureOf? : Layer → Option Failure
  | .error failure => some failure
  | .ok _ => none

/-- Reads merged settings. -/
def readSettings : Setting → Except (List Failure) Config
  | .table _ entries => (ofEntries entries).mapError fun failure => [failure]
  | setting => .error [mismatch [] setting "struct SpindleConfig"]

theorem ofLayers_eq (layers : List Layer) :
    ofLayers layers =
      if (layers.filterMap failureOf?).isEmpty then
        readSettings ((layers.filterMap settingOf?).foldl Setting.merge (toSetting {}))
      else .error (layers.filterMap failureOf?) :=
  rfl

/-- Layers that can all be read are merged over the defaults, and the result is read. -/
theorem ofLayers_of_readable {layers : List Layer} (h : layers.filterMap failureOf? = []) :
    ofLayers layers =
      readSettings ((layers.filterMap settingOf?).foldl Setting.merge (toSetting {})) := by
  rw [ofLayers_eq, h]
  rfl

theorem findSome?_filterMap {α β γ : Type} (f : α → Option β) (g : β → Option γ) (xs : List α) :
    (xs.filterMap f).findSome? g = xs.findSome? fun x => (f x).bind g := by
  rw [← List.head?_filterMap, List.filterMap_filterMap, List.head?_filterMap]

theorem findSome?_congr {α β : Type} {f g : α → Option β} {xs : List α}
    (h : ∀ x ∈ xs, f x = g x) : xs.findSome? f = xs.findSome? g := by
  rw [← List.head?_filterMap, List.filterMap_congr h, List.head?_filterMap]

/-- A layer could be read, and its settings are regular. -/
def RegularLayer (layer : Layer) : Prop := ∃ setting, layer = .ok setting ∧ RegularSetting setting

/-- What a layer gives under a key. -/
def layerGives (key : Key) (layer : Layer) : Option Content :=
  (settingOf? layer).bind (givenBy key)

/-- Regular layers make a configuration in which each key has what the last layer gives that gives
it anything, and else its default. -/
theorem ofLayers_of_regular {layers : List Layer} (h : ∀ layer ∈ layers, RegularLayer layer) :
    ∃ config, ofLayers layers = .ok config ∧
      ∀ key, get config key = (layers.reverse.findSome? (layerGives key)).getD (get {} key) := by
  have hfailures : layers.filterMap failureOf? = [] := by
    refine List.filterMap_eq_nil_iff.2 fun layer hlayer => ?_
    obtain ⟨setting, rfl, -⟩ := h layer hlayer
    rfl
  have hsettings : ∀ setting ∈ layers.filterMap settingOf?, RegularSetting setting := by
    intro setting hsetting
    obtain ⟨layer, hlayer, hsome⟩ := List.mem_filterMap.1 hsetting
    obtain ⟨other, rfl, hother⟩ := h layer hlayer
    exact Option.some.inj hsome ▸ hother
  obtain ⟨⟨origin, merged, hmerged, hregular⟩, hgiven⟩ :=
    RegularSetting.foldl_merge hsettings (regularSetting_toSetting {})
  obtain ⟨config, hconfig, hread⟩ := ofEntries_of_regular hregular
  refine ⟨config, ?_, fun key => ?_⟩
  · rw [ofLayers_of_readable hfailures, hmerged, readSettings, hconfig]
    rfl
  · have hlast : given merged key =
        (layers.reverse.findSome? (layerGives key)).or (some (get {} key)) := by
      have hgiven := hgiven key
      rw [hmerged, givenBy_toSetting, ← List.filterMap_reverse, findSome?_filterMap] at hgiven
      exact hgiven
    rw [hread, hlast]
    cases layers.reverse.findSome? (layerGives key) <;> rfl

/-! ## Documents -/

/-- The text that a value of a document is. -/
def tomlText? : Toml.Value → Option String
  | .text value => some value
  | _ => none

theorem eq_text_of_tomlText? {value : Toml.Value} {text : String}
    (h : tomlText? value = some text) : value = .text text := by
  unfold tomlText? at h
  split at h
  · rw [Option.some.inj h]
  · cases h

/-- What a value of a document gives if it stands under a key and is of the right kind. -/
def Key.ofToml? : Key → Toml.Value → Option Content
  | searchPath, .list items => (items.mapM tomlText?).map .paths
  | searchPath, _ => none
  | _, value => (tomlText? value).map .text

/-- The values of a table of a document set keys of that table, each to a value of its kind. -/
def RegularValues (name : String) (values : List (String × Toml.Value)) : Prop :=
  ∀ entry ∈ values, ∃ key : Key,
    key.table = name ∧ key.word = entry.1 ∧ (key.ofToml? entry.2).isSome

/-- A document holds tables of the configuration, each of which sets some of its keys. -/
def RegularDocument (document : List (String × Toml.Value)) : Prop :=
  ∀ entry ∈ document, entry.1 ∈ sections ∧
    ∃ values, entry.2 = .table values ∧ RegularValues entry.1 values

/-- What a table of a document gives under a key. -/
def valueUnder (key : Key) : Toml.Value → Option Content
  | .table values => (Entries.find? key.word values).bind key.ofToml?
  | _ => none

/-- What a document gives under a key. -/
def documentGives (key : Key) (document : List (String × Toml.Value)) : Option Content :=
  (Entries.find? key.table document).bind (valueUnder key)

namespace Setting

variable (origin : Origin)

theorem itemsOfToml?_of_mapM {items : List Toml.Value} {texts : List String}
    (h : items.mapM tomlText? = some texts) :
    ∃ settings, itemsOfToml? origin items = some settings ∧
      settings.mapM text? = some texts := by
  induction items generalizing texts with
  | nil => exact ⟨[], rfl, h⟩
  | cons item rest ih =>
    rw [List.mapM_cons] at h
    obtain ⟨text, htext, h⟩ := Option.bind_eq_some_iff.1 h
    obtain ⟨others, hothers, h⟩ := Option.bind_eq_some_iff.1 h
    obtain ⟨settings, hsettings, htexts⟩ := ih hothers
    have hitem : item = .text text := eq_text_of_tomlText? htext
    refine ⟨.scalar origin (.text text) :: settings, ?_, ?_⟩
    · rw [hitem, itemsOfToml?, hsettings]
      rfl
    · rw [List.mapM_cons, htexts]
      exact h

/-- A value of the right kind becomes a setting that gives the same. -/
theorem exists_ofToml? {key : Key} {value : Toml.Value} (h : (key.ofToml? value).isSome) :
    ∃ setting, ofToml? origin value = some setting ∧
      key.content? setting = key.ofToml? value := by
  by_cases hkey : key = .searchPath
  · subst hkey
    cases value with
    | list items =>
      have hvalue : Key.searchPath.ofToml? (.list items) =
          (items.mapM tomlText?).map .paths := rfl
      rw [hvalue, Option.isSome_map] at h
      obtain ⟨texts, htexts⟩ := Option.isSome_iff_exists.1 h
      obtain ⟨settings, hsettings, hread⟩ := itemsOfToml?_of_mapM origin htexts
      refine ⟨.list origin settings, ?_, ?_⟩
      · rw [ofToml?, hsettings]
        rfl
      · rw [hvalue, htexts, ← hread]
        rfl
    | _ => cases h
  · have hvalue : key.ofToml? value = (tomlText? value).map .text := by
      cases key <;> first | rfl | exact absurd rfl hkey
    rw [hvalue, Option.isSome_map] at h
    obtain ⟨text, htext⟩ := Option.isSome_iff_exists.1 h
    rw [eq_text_of_tomlText? htext]
    refine ⟨.scalar origin (.text text), by rw [ofToml?], ?_⟩
    cases key <;> rfl

/-- Where all values can be settings, the settings are found under the same names. -/
theorem exists_entriesOfToml? {values : List (String × Toml.Value)}
    (h : ∀ entry ∈ values, ∃ setting, ofToml? origin entry.2 = some setting) :
    ∃ entries, entriesOfToml? origin values = some entries ∧ Increasing entries ∧
      ∀ name, Entries.find? name entries =
        (Entries.find? name values).bind (ofToml? origin) := by
  induction values with
  | nil => exact ⟨[], rfl, List.Pairwise.nil, fun name => rfl⟩
  | cons entry rest ih =>
    obtain ⟨key, value⟩ := entry
    obtain ⟨setting, hsetting⟩ := h (key, value) List.mem_cons_self
    obtain ⟨entries, hentries, hincreasing, hfind⟩ :=
      ih fun other hother => h other (List.mem_cons_of_mem _ hother)
    refine ⟨Entries.insert key setting entries, ?_, Entries.increasing_insert hincreasing,
      fun name => ?_⟩
    · rw [entriesOfToml?, hsetting, hentries]
      rfl
    -- the first entry is inserted last, so of several under one name it is the one that counts
    · rw [Entries.find?_insert, Entries.find?_cons, hfind]
      by_cases hname : name = key
      · rw [if_pos hname, if_pos hname]
        exact hsetting.symm
      · rw [if_neg hname, if_neg hname]

variable {name : String} {values : List (String × Toml.Value)}

theorem isSome_ofToml? (h : RegularValues name values) {key : Key} {value : Toml.Value}
    (hfind : Entries.find? key.word values = some value) : (key.ofToml? value).isSome := by
  obtain ⟨other, -, hword, hsome⟩ := h _ (Entries.mem_of_find? hfind)
  rw [← Key.word_injective hword]
  exact hsome

/-- The values of a table become settings that give the same. -/
theorem exists_regularTable (h : RegularValues name values) :
    ∃ entries, entriesOfToml? origin values = some entries ∧ RegularTable name entries ∧
      ∀ key : Key, givenIn entries key = (Entries.find? key.word values).bind key.ofToml? := by
  have hsettings : ∀ entry ∈ values, ∃ setting, ofToml? origin entry.2 = some setting := by
    intro entry hentry
    obtain ⟨key, -, -, hsome⟩ := h entry hentry
    obtain ⟨setting, hsetting, -⟩ := exists_ofToml? origin hsome
    exact ⟨setting, hsetting⟩
  obtain ⟨entries, hentries, hincreasing, hfind⟩ := exists_entriesOfToml? origin hsettings
  refine ⟨entries, hentries, ⟨hincreasing, fun word setting hsetting => ?_⟩, fun key => ?_⟩
  · rw [hfind] at hsetting
    obtain ⟨value, hvalue, hsetting⟩ := Option.bind_eq_some_iff.1 hsetting
    obtain ⟨key, htable, hword, hsome⟩ := h _ (Entries.mem_of_find? hvalue)
    obtain ⟨setting', hsetting', hcontent⟩ := exists_ofToml? origin hsome
    have hsame : setting = setting' := Option.some.inj (hsetting.symm.trans hsetting')
    rw [hsame]
    exact ⟨key, htable, hword, hcontent ▸ hsome⟩
  · unfold givenIn
    rw [hfind]
    cases hvalue : Entries.find? key.word values with
    | none => rfl
    | some value =>
      have hsome := isSome_ofToml? h hvalue
      obtain ⟨setting, hsetting, hcontent⟩ := exists_ofToml? origin hsome
      rw [Option.bind_some, hsetting]
      exact hcontent

/-- A table that only sets keys does not wrap a value, and says nothing of where it comes from. -/
theorem unwrap?_of_regularTable {entries : List (String × Setting)}
    (h : RegularTable name entries) : unwrap? origin entries = some (.table origin entries) := by
  -- the words that tell a wrapped value are no keys
  have hnone : ∀ word, (∀ key : Key, key.word ≠ word) → Entries.find? word entries = none := by
    intro word hword
    cases hfind : Entries.find? word entries with
    | none => rfl
    | some setting =>
      obtain ⟨key, -, hkey, -⟩ := h.known word setting hfind
      exact absurd hkey (hword key)
  have hidentity : Entries.find? identityKey entries = none :=
    hnone _ fun key => by cases key <;> decide
  have hwrapped : Entries.find? wrappedKey entries = none :=
    hnone _ fun key => by cases key <;> decide
  rw [unwrap?, hidentity, hwrapped]
  rfl

/-- A regular document becomes regular settings that give the same. -/
theorem exists_regular {document : List (String × Toml.Value)} (h : RegularDocument document) :
    ∃ entries, entriesOfToml? origin document = some entries ∧ Regular entries ∧
      ∀ key, given entries key = documentGives key document := by
  have htable : ∀ {name : String} {values}, RegularValues name values →
      ∃ entries, ofToml? origin (.table values) = some (.table origin entries) ∧
        RegularTable name entries ∧
        ∀ key : Key, givenIn entries key = (Entries.find? key.word values).bind key.ofToml? := by
    intro name values hvalues
    obtain ⟨entries, hentries, hregular, hgiven⟩ := exists_regularTable origin hvalues
    refine ⟨entries, ?_, hregular, hgiven⟩
    rw [ofToml?, hentries]
    exact unwrap?_of_regularTable origin hregular
  have hsettings : ∀ entry ∈ document, ∃ setting, ofToml? origin entry.2 = some setting := by
    intro entry hentry
    obtain ⟨-, values, hvalue, hvalues⟩ := h entry hentry
    obtain ⟨entries, hentries, -⟩ := htable hvalues
    rw [hvalue]
    exact ⟨_, hentries⟩
  obtain ⟨entries, hentries, hincreasing, hfind⟩ := exists_entriesOfToml? origin hsettings
  refine ⟨entries, hentries, ⟨hincreasing, fun name setting hsetting => ?_⟩, fun key => ?_⟩
  · rw [hfind] at hsetting
    obtain ⟨value, hvalue, hsetting⟩ := Option.bind_eq_some_iff.1 hsetting
    obtain ⟨hname, values, rfl, hvalues⟩ := h _ (Entries.mem_of_find? hvalue)
    obtain ⟨inner, hinner, hregular, -⟩ := htable hvalues
    rw [hinner] at hsetting
    exact ⟨hname, origin, inner, (Option.some.inj hsetting).symm, hregular⟩
  · unfold given documentGives
    rw [hfind]
    cases hvalue : Entries.find? key.table document with
    | none => rfl
    | some value =>
      obtain ⟨-, values, rfl, hvalues⟩ := h _ (Entries.mem_of_find? hvalue)
      obtain ⟨inner, hinner, -, hgiven⟩ := htable hvalues
      rw [Option.bind_some, hinner]
      exact hgiven key

end Setting

/-! ## Files -/

/-- A file holds a regular document. -/
def RegularSource (source : Source) : Prop :=
  ∃ document, Toml.document? source.text = some document ∧ RegularDocument document

/-- What a file gives under a key. -/
def sourceGives (key : Key) (source : Source) : Option Content :=
  (Toml.document? source.text).bind (documentGives key)

theorem regularLayer_fileLayer {source : Source} (h : RegularSource source) :
    RegularLayer (fileLayer source) ∧
      ∀ key, layerGives key (fileLayer source) = sourceGives key source := by
  obtain ⟨document, hdocument, hregular⟩ := h
  obtain ⟨entries, hentries, hsettings, hgiven⟩ :=
    Setting.exists_regular (.file source.path) hregular
  have hlayer : fileLayer source = .ok (.table (.file source.path) entries) := by
    simp only [fileLayer, layerOf, hdocument, Option.bind_eq_bind, Option.bind_some, hentries]
  refine ⟨⟨_, hlayer, _, _, rfl, hsettings⟩, fun key => ?_⟩
  rw [hlayer, sourceGives, hdocument]
  exact hgiven key

/-! ## The environment -/

/-- The name of the variable for a key, in lower case. -/
def Key.variableName (key : Key) : String := "spindle_" ++ key.table ++ "_" ++ key.word

/-- A variable is named for a key, in letters of either case. -/
def Key.Names (key : Key) (name : String) : Prop := name.toLower = key.variableName

instance (key : Key) (name : String) : Decidable (key.Names name) :=
  inferInstanceAs (Decidable (name.toLower = key.variableName))

theorem Key.variableName_injective {key other : Key} (h : key.variableName = other.variableName) :
    key = other := by
  cases key <;> cases other <;> first | rfl | exact absurd h (by decide)

theorem isBlank_toLower {c : Char} (h : Text.isBlank c = true) : Text.isBlank c.toLower = true := by
  have hsame : c.toLower = c := by
    simp only [Text.isBlank, Text.blankRanges, List.any_cons, List.any_nil, Bool.or_false,
      Bool.or_eq_true, Bool.and_eq_true, decide_eq_true_eq] at h
    -- no blank is a letter in upper case
    refine dif_neg fun hupper => ?_
    have hrange : 65 ≤ c.toNat ∧ c.toNat ≤ 90 := hupper
    omega
  rw [hsame]
  exact h

theorem not_isBlank_variableName {key : Key} {c : Char} (h : c ∈ key.variableName.toList) :
    Text.isBlank c = false := by
  have hvisible : ∀ c ∈ key.variableName.toList, 33 ≤ c.toNat ∧ c.toNat ≤ 126 := by
    cases key <;> simp [Key.variableName, Key.table, Key.word]
  exact Text.isBlank_of_visible (hvisible c h)

theorem not_isBlank_of_names {key : Key} {name : String} (h : key.Names name) {c : Char}
    (hc : c ∈ name.toList) : Text.isBlank c = false := by
  have hlower : c.toLower ∈ key.variableName.toList := by
    rw [← h, String.toLower, String.toList_map]
    exact List.mem_map_of_mem hc
  cases hblank : Text.isBlank c with
  | false => rfl
  | true =>
    rw [← isBlank_toLower hblank]
    exact not_isBlank_variableName hlower

/-- A variable that is named for a key sets it: the underscore after the name of the table sets off
the table, and those within the key stay. -/
theorem variablePath?_of_names {key : Key} {name : String} (h : key.Names name) :
    variablePath? name = some [key.table, key.word] := by
  have hblank : ∀ c ∈ name.toList, Text.isBlank c = false := fun c hc => not_isBlank_of_names h hc
  have hlower : name.toList.map Char.toLower = key.variableName.toList := by
    rw [← h, String.toLower, String.toList_map]
  unfold variablePath?
  rw [Text.trimStart_eq_self hblank, Text.trimEnd_eq_self hblank, hlower]
  -- the name is now that of the key, and what is done to it can be computed
  cases key <;> cbv

/-- A variable sets nothing, or it is named for a key and has a value of its kind. -/
def RegularVariable (entry : String × String) : Prop :=
  variablePath? entry.1 = none ∨
    ∃ key : Key, key.Names entry.1 ∧ (key.content? (ofVariable entry.2)).isSome

/-- What a variable gives under a key. -/
def variableGives (key : Key) (entry : String × String) : Option Content :=
  if key.Names entry.1 then key.content? (ofVariable entry.2) else none

/-- What an environment gives under a key; of several variables for the key the last counts. -/
def environmentGives (key : Key) (environment : List (String × String)) : Option Content :=
  (distinctVariables environment).reverse.findSome? (variableGives key)

/-- The setting of a variable, if it sets anything. -/
def variableSetting? (entry : String × String) : Option Setting :=
  (variablePath? entry.1).map fun path => .nest environmentOrigin path (ofVariable entry.2)

theorem ofEnvironment_eq (environment : List (String × String)) :
    ofEnvironment environment =
      ((distinctVariables environment).filterMap variableSetting?).foldl Setting.merge
        (.table environmentOrigin []) := by
  unfold ofEnvironment
  rw [List.foldl_filterMap]
  congr
  funext settings entry
  obtain ⟨name, value⟩ := entry
  dsimp only [variableSetting?]
  cases variablePath? name <;> rfl

/-- The setting of a single key. -/
theorem regularSetting_nest {key : Key} {setting : Setting} (h : (key.content? setting).isSome)
    (origin : Origin) :
    RegularSetting (.nest origin [key.table, key.word] setting) ∧
      ∀ other, givenBy other (.nest origin [key.table, key.word] setting) =
        if other = key then key.content? setting else none := by
  have hinner : RegularTable key.table [(key.word, setting)] := by
    refine .of_mem (List.pairwise_singleton _ _) fun entry hentry => ?_
    rw [List.mem_singleton.1 hentry]
    exact ⟨key, rfl, rfl, h⟩
  have hregular : Regular [(key.table, .table origin [(key.word, setting)])] := by
    refine .of_mem (List.pairwise_singleton _ _) fun entry hentry => ?_
    rw [List.mem_singleton.1 hentry]
    exact ⟨key.table_mem_sections, _, _, rfl, hinner⟩
  refine ⟨⟨_, _, rfl, hregular⟩, fun other => ?_⟩
  have hgiven : givenBy other (.nest origin [key.table, key.word] setting) =
      given [(key.table, .table origin [(key.word, setting)])] other := rfl
  rw [hgiven, given, Entries.find?_cons]
  by_cases hsame : other = key
  · subst hsame
    rw [if_pos rfl, if_pos rfl, Option.bind_some, givenUnder, givenIn, Entries.find?_cons,
      if_pos rfl, Option.bind_some]
  · have hword : other.word ≠ key.word := fun heq => hsame (Key.word_injective heq)
    rw [if_neg hsame]
    split
    · rw [Option.bind_some, givenUnder, givenIn, Entries.find?_cons, if_neg hword]
      rfl
    · rfl

/-- A regular variable becomes a regular setting that gives the same, or none. -/
theorem regularSetting_of_variableSetting? {entry : String × String} (h : RegularVariable entry) :
    (∀ setting, variableSetting? entry = some setting → RegularSetting setting) ∧
      ∀ key, (variableSetting? entry).bind (givenBy key) = variableGives key entry := by
  unfold variableSetting? variableGives
  rcases h with hnone | ⟨key, hnames, hsome⟩
  · rw [hnone]
    refine ⟨fun setting hsetting => absurd hsetting (Option.some_ne_none setting).symm,
      fun key => ?_⟩
    have hnot : ¬key.Names entry.1 := by
      intro hnames
      rw [variablePath?_of_names hnames] at hnone
      cases hnone
    rw [if_neg hnot]
    rfl
  · obtain ⟨hregular, hgiven⟩ := regularSetting_nest hsome environmentOrigin
    rw [variablePath?_of_names hnames]
    refine ⟨fun setting hsetting => Option.some.inj hsetting ▸ hregular, fun other => ?_⟩
    refine (hgiven other).trans ?_
    by_cases hsame : other = key
    · subst hsame
      rw [if_pos rfl, if_pos hnames]
    · have hnot : ¬other.Names entry.1 := fun hother =>
        hsame (Key.variableName_injective (hother.symm.trans hnames))
      rw [if_neg hsame, if_neg hnot]

theorem regularSetting_ofEnvironment {environment : List (String × String)}
    (h : ∀ entry ∈ distinctVariables environment, RegularVariable entry) :
    RegularSetting (ofEnvironment environment) ∧
      ∀ key, givenBy key (ofEnvironment environment) = environmentGives key environment := by
  have hstart : RegularSetting (.table environmentOrigin []) :=
    ⟨_, _, rfl, .of_mem List.Pairwise.nil (List.forall_mem_nil _)⟩
  have hsettings : ∀ setting ∈ (distinctVariables environment).filterMap variableSetting?,
      RegularSetting setting := by
    intro setting hsetting
    obtain ⟨entry, hentry, hsome⟩ := List.mem_filterMap.1 hsetting
    exact (regularSetting_of_variableSetting? (h entry hentry)).1 setting hsome
  obtain ⟨hregular, hgiven⟩ := RegularSetting.foldl_merge hsettings hstart
  rw [ofEnvironment_eq]
  refine ⟨hregular, fun key => ?_⟩
  have hsame : (distinctVariables environment).reverse.findSome?
      (fun entry => (variableSetting? entry).bind (givenBy key)) =
        environmentGives key environment := by
    refine findSome?_congr fun entry hentry => ?_
    exact (regularSetting_of_variableSetting? (h entry (List.mem_reverse.1 hentry))).2 key
  rw [hgiven, ← List.filterMap_reverse, findSome?_filterMap, hsame]
  exact Option.or_none

/-! ## The standard layers -/

/-- What an optional file gives under a key. -/
def fileGives (key : Key) (file : Option Source) : Option Content := file.bind (sourceGives key)

namespace Hierarchy

/-- Of the files that are merged the last one that gives anything is sought. -/
theorem findSome?_reverse_merged (h : Hierarchy) (key : Key) :
    h.merged.reverse.findSome? (sourceGives key) =
      (fileGives key (h.folders.findSome? id)).or
        ((fileGives key h.user).or (fileGives key h.system)) := by
  have hfile : ∀ file : Option Source,
      file.toList.reverse.findSome? (sourceGives key) = fileGives key file := by
    intro file
    cases file with
    | none => rfl
    | some source => exact List.findSome?_singleton
  rw [merged, List.reverse_append, List.reverse_append, List.findSome?_append,
    List.findSome?_append, hfile, hfile, hfile]

/-- Where all files and variables are regular, the standard layers can be loaded. Each key has what
the environment gives, else what the file of the working folder, of the user or of the system gives,
in this order, and else its default. What a layer gives under a key is taken as it is, and leaves
the other keys to the layers before it. -/
theorem load_by_precedence (h : Hierarchy) (environment : List (String × String))
    (hfiles : ∀ source ∈ h.merged, RegularSource source)
    (hvariables : ∀ entry ∈ distinctVariables environment, RegularVariable entry) :
    ∃ config, h.load environment = .ok config ∧
      ∀ key, get config key =
        ((environmentGives key environment).or
          ((fileGives key (h.folders.findSome? id)).or
            ((fileGives key h.user).or (fileGives key h.system)))).getD (get {} key) := by
  obtain ⟨hsettings, hgiven⟩ := regularSetting_ofEnvironment hvariables
  have hlayers : ∀ layer ∈ h.merged.map fileLayer ++ [.ok (ofEnvironment environment)],
      RegularLayer layer := by
    intro layer hlayer
    rcases List.mem_append.1 hlayer with hlayer | hlayer
    · obtain ⟨source, hsource, rfl⟩ := List.mem_map.1 hlayer
      exact (regularLayer_fileLayer (hfiles source hsource)).1
    · rw [List.mem_singleton.1 hlayer]
      exact ⟨_, rfl, hsettings⟩
  obtain ⟨config, hconfig, hread⟩ := ofLayers_of_regular hlayers
  refine ⟨config, ?_, fun key => ?_⟩
  · rw [load, hconfig]
    rfl
  · have hlast : (h.merged.map fileLayer ++
        [Except.ok (ofEnvironment environment)]).reverse.findSome? (layerGives key) =
          (environmentGives key environment).or
            (h.merged.reverse.findSome? (sourceGives key)) := by
      rw [List.reverse_append, List.findSome?_append, ← List.map_reverse, List.findSome?_map,
        ← hgiven, List.reverse_singleton, List.findSome?_singleton]
      refine congrArg _ (findSome?_congr fun source hsource => ?_)
      exact (regularLayer_fileLayer (hfiles source (List.mem_reverse.1 hsource))).2 key
    rw [hread, hlast, findSome?_reverse_merged]

/-- Files of a user and of the working folder that set one key both. -/
def disputed : Hierarchy where
  user := some
    { path := "user.toml"
      text := "[discovery]\nsearch_path = [\"u\"]\nstandard_namespace = \"user.\"\n" }
  folders := [some { path := "spindle.toml", text := "discovery.search_path = [\"a\", \"b\"]\n" }]

/-- Variables, one of which is named for a key. -/
def someVariables : List (String × String) :=
  [("PATH", "/bin"), ("Spindle_Logging_Filter", "debug")]

/-- The folders of the user are replaced and not added to, the other key that the user sets is
kept, and what no file sets comes from the environment or by default. -/
theorem load_disputed :
    (∀ source ∈ disputed.merged, RegularSource source) ∧
      (∀ entry ∈ distinctVariables someVariables, RegularVariable entry) ∧
      ∃ config, disputed.load someVariables = .ok config ∧
        get config .searchPath = .paths ["a", "b"] ∧
        get config .standardNamespace = .text "user." ∧ get config .filter = .text "debug" ∧
        get config .interfaceManifest = .text "META-INF/spindle/extension-points" := by
  have hfiles : ∀ source ∈ disputed.merged, RegularSource source := by
    refine List.forall_mem_cons.2 ⟨?_, List.forall_mem_cons.2 ⟨?_, List.forall_mem_nil _⟩⟩
    · refine ⟨[("discovery", .table [("search_path", .list [.text "u"]),
        ("standard_namespace", .text "user.")])], by cbv, ?_⟩
      refine List.forall_mem_singleton.2 ⟨by decide, _, rfl, ?_⟩
      exact List.forall_mem_cons.2 ⟨⟨.searchPath, rfl, rfl, rfl⟩,
        List.forall_mem_singleton.2 ⟨.standardNamespace, rfl, rfl, rfl⟩⟩
    · refine ⟨[("discovery", .table [("search_path", .list [.text "a", .text "b"])])], by cbv, ?_⟩
      refine List.forall_mem_singleton.2 ⟨by decide, _, rfl, ?_⟩
      exact List.forall_mem_singleton.2 ⟨.searchPath, rfl, rfl, rfl⟩
  have hvariables : ∀ entry ∈ distinctVariables someVariables, RegularVariable entry := by
    have hdistinct : distinctVariables someVariables = someVariables := by decide +kernel
    rw [hdistinct]
    refine List.forall_mem_cons.2 ⟨?_, List.forall_mem_cons.2 ⟨?_, List.forall_mem_nil _⟩⟩
    · exact .inl (by decide +kernel)
    · exact .inr ⟨.filter, by decide +kernel, by decide +kernel⟩
  obtain ⟨config, hconfig, hget⟩ := load_by_precedence disputed someVariables hfiles hvariables
  refine ⟨hfiles, hvariables, config, hconfig, ?_, ?_, ?_, ?_⟩
  · rw [hget]
    decide +kernel
  · rw [hget]
    decide +kernel
  · rw [hget]
    decide +kernel
  · rw [hget]
    decide +kernel

end Hierarchy

end PluginDiscovery.Config
