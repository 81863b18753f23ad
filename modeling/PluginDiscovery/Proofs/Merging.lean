import PluginDiscovery.Config.Decode

/-!
# What settings give

A configuration has five keys, each in one of two tables and with a text or a list of texts as its
content. Settings are regular if they set some of these keys, each to a content of its kind, and
nothing else. What regular settings give is a matter of single keys, and so is merging them:
under every key the later settings decide, and the earlier ones only where the later ones give
nothing (`Regular.given_merge`, `RegularSetting.foldl_merge`). Neither the other keys of a table nor
the items of an earlier list bear on this.
-/

namespace PluginDiscovery.Config

/-! ## Keys -/

/-- A key of the configuration. -/
inductive Key where
  /-- Where modules list their extension points. -/
  | interfaceManifest
  /-- Where they list their implementations. -/
  | implementationManifest
  /-- The folders to search. -/
  | searchPath
  /-- What the names of standard types start with. -/
  | standardNamespace
  /-- What is logged. -/
  | filter
deriving DecidableEq, Repr

/-- What stands under a key. -/
inductive Content where
  /-- One text. -/
  | text (value : String)
  /-- A list of paths. -/
  | paths (values : List String)
deriving DecidableEq, Repr

/-- What a configuration has under a key. -/
def get (config : Config) : Key → Content
  | .interfaceManifest => .text config.discovery.interfaceManifest
  | .implementationManifest => .text config.discovery.implementationManifest
  | .searchPath => .paths config.discovery.searchPath
  | .standardNamespace => .text config.discovery.standardNamespace
  | .filter => .text config.logging.filter

/-- The text that a setting is. -/
def Setting.text? : Setting → Option String
  | .scalar _ (.text value) => some value
  | _ => none

namespace Key

/-- The table that a key is in. -/
def table : Key → String
  | filter => "logging"
  | _ => "discovery"

/-- The name of a key in its table. -/
def word : Key → String
  | interfaceManifest => "interface_manifest"
  | implementationManifest => "implementation_manifest"
  | searchPath => "search_path"
  | standardNamespace => "standard_namespace"
  | filter => "filter"

theorem word_injective {key other : Key} (h : key.word = other.word) : key = other := by
  cases key <;> cases other <;> first | rfl | exact absurd h (by decide)

theorem table_mem_sections (key : Key) : key.table ∈ sections := by
  cases key <;> decide

/-- What a setting gives if it stands under a key and is of the right kind. -/
def content? : Key → Setting → Option Content
  | searchPath, .list _ items => (items.mapM Setting.text?).map .paths
  | searchPath, _ => none
  | _, setting => setting.text?.map .text

/-- A setting that gives something is no table, so it takes the place of any other. -/
theorem merge_of_content? {key : Key} {setting : Setting} (h : (key.content? setting).isSome)
    (earlier : Setting) : earlier.merge setting = setting := by
  cases setting with
  | scalar origin value => simp [Setting.merge]
  | list origin items => simp [Setting.merge]
  | table origin entries => cases key <;> cases h

end Key

/-! ## Merged entries -/

namespace Setting

theorem increasing_mergeEntries {entries : List (String × Setting)} (h : Increasing entries)
    (later : List (String × Setting)) : Increasing (mergeEntries entries later) := by
  induction later generalizing entries with
  | nil =>
    unfold mergeEntries
    exact h
  | cons entry rest ih =>
    unfold mergeEntries
    exact ih (Entries.increasing_insert h)

/-- Under each name there is the later setting merged over the earlier one, as far as there are
both. -/
theorem find?_mergeEntries {later : List (String × Setting)} (h : Increasing later)
    (entries : List (String × Setting)) (name : String) :
    Entries.find? name (mergeEntries entries later) =
      match Entries.find? name later, Entries.find? name entries with
      | none, earlier => earlier
      | some setting, none => some setting
      | some setting, some earlier => some (merge earlier setting) := by
  induction later generalizing entries with
  | nil =>
    unfold mergeEntries
    rfl
  | cons entry rest ih =>
    obtain ⟨key, setting⟩ := entry
    have hrest : Increasing rest := (List.pairwise_cons.1 h).2
    unfold mergeEntries
    rw [ih hrest, Entries.find?_cons, Entries.find?_insert]
    by_cases hname : name = key
    -- the rest does not have this name again, so it is merged once
    · subst hname
      rw [Entries.find?_eq_none_of_increasing_cons h, if_pos rfl, if_pos rfl]
      cases Entries.find? name entries <;> rfl
    · rw [if_neg hname, if_neg hname]

end Setting

/-! ## Regular settings -/

/-- The entries of a table set keys of that table, each to a content of its kind. -/
structure RegularTable (name : String) (entries : List (String × Setting)) : Prop where
  /-- The entries are in order, each word once. -/
  increasing : Increasing entries
  /-- Each word is that of a key of the table, with a content that fits. -/
  known : ∀ word setting, Entries.find? word entries = some setting →
    ∃ key : Key, key.table = name ∧ key.word = word ∧ (key.content? setting).isSome

/-- The entries of settings are tables of the configuration, each of which sets some of its keys. -/
structure Regular (entries : List (String × Setting)) : Prop where
  /-- The tables are in order, each once. -/
  increasing : Increasing entries
  /-- Each is a table of the configuration, and regular. -/
  tables : ∀ name setting, Entries.find? name entries = some setting →
    name ∈ sections ∧ ∃ origin inner, setting = .table origin inner ∧ RegularTable name inner

/-- What the entries of a table give under a key. -/
def givenIn (inner : List (String × Setting)) (key : Key) : Option Content :=
  (Entries.find? key.word inner).bind key.content?

/-- What a table gives under a key. -/
def givenUnder (key : Key) : Setting → Option Content
  | .table _ inner => givenIn inner key
  | _ => none

/-- What the entries of settings give under a key. -/
def given (entries : List (String × Setting)) (key : Key) : Option Content :=
  (Entries.find? key.table entries).bind (givenUnder key)

namespace RegularTable

variable {name : String} {entries later : List (String × Setting)}

theorem of_mem (hincreasing : Increasing entries)
    (h : ∀ entry ∈ entries,
      ∃ key : Key, key.table = name ∧ key.word = entry.1 ∧ (key.content? entry.2).isSome) :
    RegularTable name entries := by
  refine ⟨hincreasing, fun word setting hfind => ?_⟩
  exact h (word, setting) ((Entries.find?_eq_some_iff hincreasing).1 hfind)

theorem isSome_content? (h : RegularTable name entries) {key : Key} {setting : Setting}
    (hfind : Entries.find? key.word entries = some setting) : (key.content? setting).isSome := by
  obtain ⟨other, -, hword, hsome⟩ := h.known _ _ hfind
  rw [← Key.word_injective hword]
  exact hsome

theorem merge (hearlier : RegularTable name entries) (hlater : RegularTable name later) :
    RegularTable name (Setting.mergeEntries entries later) := by
  refine ⟨Setting.increasing_mergeEntries hearlier.increasing later, fun word setting hfind => ?_⟩
  rw [Setting.find?_mergeEntries hlater.increasing] at hfind
  cases hnew : Entries.find? word later with
  | none =>
    rw [hnew] at hfind
    exact hearlier.known word setting hfind
  | some new =>
    obtain ⟨key, htable, hword, hsome⟩ := hlater.known word new hnew
    -- a new setting stays as it is, whatever stood in its place
    have hsame : setting = new := by
      cases hold : Entries.find? word entries with
      | none =>
        rw [hnew, hold] at hfind
        exact (Option.some.inj hfind).symm
      | some old =>
        rw [hnew, hold] at hfind
        exact (Option.some.inj hfind).symm.trans (Key.merge_of_content? hsome old)
    rw [hsame]
    exact ⟨key, htable, hword, hsome⟩

theorem givenIn_merge (hlater : RegularTable name later) (entries : List (String × Setting))
    (key : Key) : givenIn (Setting.mergeEntries entries later) key =
      (givenIn later key).or (givenIn entries key) := by
  unfold givenIn
  rw [Setting.find?_mergeEntries hlater.increasing]
  cases hnew : Entries.find? key.word later with
  | none => rfl
  | some new =>
    have hsome := hlater.isSome_content? hnew
    have hkept : ((key.content? new).or ((Entries.find? key.word entries).bind key.content?)) =
        key.content? new := Option.or_of_isSome hsome
    rw [Option.bind_some, hkept]
    cases Entries.find? key.word entries with
    | none => rfl
    | some old => exact congrArg key.content? (Key.merge_of_content? hsome old)

end RegularTable

namespace Regular

variable {entries later : List (String × Setting)}

theorem of_mem (hincreasing : Increasing entries)
    (h : ∀ entry ∈ entries, entry.1 ∈ sections ∧
      ∃ origin inner, entry.2 = .table origin inner ∧ RegularTable entry.1 inner) :
    Regular entries := by
  refine ⟨hincreasing, fun name setting hfind => ?_⟩
  exact h (name, setting) ((Entries.find?_eq_some_iff hincreasing).1 hfind)

theorem merge (hearlier : Regular entries) (hlater : Regular later) :
    Regular (Setting.mergeEntries entries later) := by
  refine ⟨Setting.increasing_mergeEntries hearlier.increasing later, fun name setting hfind => ?_⟩
  rw [Setting.find?_mergeEntries hlater.increasing] at hfind
  cases hnew : Entries.find? name later with
  | none =>
    rw [hnew] at hfind
    exact hearlier.tables name setting hfind
  | some new =>
    obtain ⟨hname, origin, inner, rfl, hinner⟩ := hlater.tables name new hnew
    refine ⟨hname, ?_⟩
    cases hold : Entries.find? name entries with
    | none =>
      rw [hnew, hold] at hfind
      exact ⟨origin, inner, (Option.some.inj hfind).symm, hinner⟩
    | some old =>
      obtain ⟨-, origin', inner', rfl, hinner'⟩ := hearlier.tables name old hold
      rw [hnew, hold] at hfind
      refine ⟨origin, _, (Option.some.inj hfind).symm.trans ?_, hinner'.merge hinner⟩
      simp only [Setting.merge]

/-- Under every key the later settings decide, and the earlier ones only where the later ones give
nothing. -/
theorem given_merge (hearlier : Regular entries) (hlater : Regular later) (key : Key) :
    given (Setting.mergeEntries entries later) key = (given later key).or (given entries key) := by
  unfold given
  rw [Setting.find?_mergeEntries hlater.increasing]
  cases hnew : Entries.find? key.table later with
  | none => rfl
  | some new =>
    obtain ⟨-, origin, inner, rfl, hinner⟩ := hlater.tables _ _ hnew
    cases hold : Entries.find? key.table entries with
    | none => exact (Option.or_none).symm
    | some old =>
      obtain ⟨-, origin', inner', rfl, -⟩ := hearlier.tables _ _ hold
      simp only [Setting.merge]
      exact hinner.givenIn_merge inner' key

end Regular

/-! ## Merging one setting after the other -/

/-- A setting is a table of regular settings. -/
def RegularSetting (setting : Setting) : Prop :=
  ∃ origin entries, setting = .table origin entries ∧ Regular entries

/-- What a setting gives under a key. -/
def givenBy (key : Key) : Setting → Option Content
  | .table _ entries => given entries key
  | _ => none

namespace RegularSetting

variable {earlier later : Setting}

theorem merge (hearlier : RegularSetting earlier) (hlater : RegularSetting later) :
    RegularSetting (earlier.merge later) := by
  obtain ⟨origin, entries, rfl, hentries⟩ := hearlier
  obtain ⟨origin', entries', rfl, hentries'⟩ := hlater
  refine ⟨origin', _, ?_, hentries.merge hentries'⟩
  simp only [Setting.merge]

theorem givenBy_merge (hearlier : RegularSetting earlier) (hlater : RegularSetting later)
    (key : Key) : givenBy key (earlier.merge later) =
      (givenBy key later).or (givenBy key earlier) := by
  obtain ⟨origin, entries, rfl, hentries⟩ := hearlier
  obtain ⟨origin', entries', rfl, hentries'⟩ := hlater
  simp only [Setting.merge]
  exact hentries.given_merge hentries' key

/-- Of regular settings that are merged one over the other, each key has what the last one gives
that gives it anything. -/
theorem foldl_merge {settings : List Setting} (h : ∀ setting ∈ settings, RegularSetting setting)
    {start : Setting} (hstart : RegularSetting start) :
    RegularSetting (settings.foldl Setting.merge start) ∧
      ∀ key, givenBy key (settings.foldl Setting.merge start) =
        (settings.reverse.findSome? (givenBy key)).or (givenBy key start) := by
  induction settings generalizing start with
  | nil => exact ⟨hstart, fun key => rfl⟩
  | cons setting rest ih =>
    have hsetting : RegularSetting setting := h setting List.mem_cons_self
    have hrest : ∀ other ∈ rest, RegularSetting other := fun other hother =>
      h other (List.mem_cons_of_mem _ hother)
    obtain ⟨hregular, hgiven⟩ := ih hrest (hstart.merge hsetting)
    refine ⟨hregular, fun key => ?_⟩
    rw [List.foldl_cons, hgiven, hstart.givenBy_merge hsetting, List.reverse_cons,
      List.findSome?_append, List.findSome?_singleton, Option.or_assoc]

end RegularSetting

end PluginDiscovery.Config
