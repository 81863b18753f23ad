import PluginDiscovery.Proofs.Precedence

/-!
# Where settings and failures come from

Every value of merged settings comes from one of the layers. Merging makes no new origins, and a
setting that is read from a document, from the environment or from the defaults has one origin
throughout (`Setting.ComesFrom`). A failure to read settings is about one of the values in them, so
it tells of the origin of a layer (`Blames`, `origins_of_failures`).
-/

namespace PluginDiscovery.Config

/-- All that a setting consists of comes from origins with a property. -/
inductive Setting.ComesFrom (known : Origin → Prop) : Setting → Prop
  /-- A scalar comes from its origin. -/
  | scalar {origin : Origin} {value : Scalar} : known origin →
      ComesFrom known (.scalar origin value)
  /-- A list and all its items do. -/
  | list {origin : Origin} {items : List Setting} : known origin →
      (∀ item ∈ items, ComesFrom known item) → ComesFrom known (.list origin items)
  /-- A table and all its entries do. -/
  | table {origin : Origin} {entries : List (String × Setting)} : known origin →
      (∀ entry ∈ entries, ComesFrom known entry.2) → ComesFrom known (.table origin entries)

/-! ## Merging -/

namespace Setting.ComesFrom

variable {known : Origin → Prop} {setting earlier later : Setting}

theorem origin (h : ComesFrom known setting) : known setting.origin := by
  cases h <;> assumption

theorem mono {other : Origin → Prop} (h : ComesFrom known setting)
    (hother : ∀ origin, known origin → other origin) : ComesFrom other setting := by
  induction h with
  | scalar horigin => exact .scalar (hother _ horigin)
  | list horigin _ ih => exact .list (hother _ horigin) ih
  | table horigin _ ih => exact .table (hother _ horigin) ih

theorem mergeEntries {entries later : List (String × Setting)}
    (hentries : ∀ entry ∈ entries, ComesFrom known entry.2)
    (hlater : ∀ entry ∈ later, ComesFrom known entry.2 ∧
      ∀ earlier, ComesFrom known earlier → ComesFrom known (Setting.merge earlier entry.2)) :
    ∀ entry ∈ Setting.mergeEntries entries later, ComesFrom known entry.2 := by
  induction later generalizing entries with
  | nil =>
    unfold Setting.mergeEntries
    exact hentries
  | cons entry rest ih =>
    obtain ⟨key, setting⟩ := entry
    obtain ⟨⟨hsetting, hmerge⟩, hrest⟩ := List.forall_mem_cons.1 hlater
    unfold Setting.mergeEntries
    refine ih ?_ hrest
    intro entry hentry
    rcases Entries.mem_insert hentry with rfl | hentry
    · cases hfind : Entries.find? key entries with
      | none => simpa only [hfind] using hsetting
      | some earlier =>
        have hearlier := hentries _ (Entries.mem_of_find? hfind)
        simpa only [hfind] using hmerge earlier hearlier
    · exact hentries entry hentry

theorem merge (hearlier : ComesFrom known earlier) (hlater : ComesFrom known later) :
    ComesFrom known (earlier.merge later) := by
  induction hlater generalizing earlier with
  | scalar horigin =>
    unfold Setting.merge
    exact .scalar horigin
  | list horigin hitems =>
    unfold Setting.merge
    exact .list horigin hitems
  | table horigin hlater ih =>
    cases hearlier with
    | table _ hentries =>
      simp only [Setting.merge]
      refine .table horigin (mergeEntries hentries ?_)
      intro entry hentry
      exact ⟨hlater entry hentry, fun _ hearlier => ih entry hentry hearlier⟩
    | _ =>
      simp only [Setting.merge]
      exact .table horigin hlater

theorem foldl_merge {settings : List Setting}
    (h : ∀ setting ∈ settings, ComesFrom known setting) {start : Setting}
    (hstart : ComesFrom known start) : ComesFrom known (settings.foldl Setting.merge start) := by
  induction settings generalizing start with
  | nil => exact hstart
  | cons setting rest ih =>
    obtain ⟨hsetting, hrest⟩ := List.forall_mem_cons.1 h
    exact ih hrest (hstart.merge hsetting)

end Setting.ComesFrom

/-! ## Documents -/

namespace Setting

variable {known : Origin → Prop} {origin : Origin}

theorem comesFrom_unwrap? (horigin : known origin) {entries : List (String × Setting)}
    (hentries : ∀ entry ∈ entries, ComesFrom known entry.2) {setting : Setting}
    (h : unwrap? origin entries = some setting) : ComesFrom known setting := by
  unfold unwrap? at h
  split at h
  · cases h
  · cases hfind : Entries.find? wrappedKey entries with
    | none =>
      rw [hfind] at h
      cases h
      exact .table horigin hentries
    | some wrapped =>
      rw [hfind] at h
      cases h
      exact hentries _ (Entries.mem_of_find? hfind)

mutual

theorem comesFrom_ofToml? (horigin : known origin) {setting : Setting} :
    ∀ {value : Toml.Value}, ofToml? origin value = some setting → ComesFrom known setting
  | .text _, h | .integer _, h | .real _, h | .flag _, h => by
    rw [ofToml?] at h
    cases h
    exact .scalar horigin
  | .moment _, h => by
    rw [ofToml?] at h
    cases h
    exact .table horigin (List.forall_mem_singleton.2 (.scalar horigin))
  | .list items, h => by
    rw [ofToml?] at h
    obtain ⟨settings, hsettings, h⟩ := Option.bind_eq_some_iff.1 h
    cases h
    exact .list horigin (comesFrom_itemsOfToml? horigin hsettings)
  | .table values, h => by
    rw [ofToml?] at h
    obtain ⟨entries, hentries, h⟩ := Option.bind_eq_some_iff.1 h
    exact comesFrom_unwrap? horigin (comesFrom_entriesOfToml? horigin hentries) h

theorem comesFrom_itemsOfToml? (horigin : known origin) :
    ∀ {items : List Toml.Value} {settings : List Setting},
      itemsOfToml? origin items = some settings → ∀ setting ∈ settings, ComesFrom known setting
  | [], _, h => by
    cases h
    exact List.forall_mem_nil _
  | item :: rest, _, h => by
    rw [itemsOfToml?] at h
    obtain ⟨setting, hsetting, h⟩ := Option.bind_eq_some_iff.1 h
    obtain ⟨settings, hsettings, h⟩ := Option.bind_eq_some_iff.1 h
    cases h
    have hrest := comesFrom_itemsOfToml? horigin hsettings
    exact List.forall_mem_cons.2 ⟨comesFrom_ofToml? horigin hsetting, hrest⟩

theorem comesFrom_entriesOfToml? (horigin : known origin) :
    ∀ {values : List (String × Toml.Value)} {entries : List (String × Setting)},
      entriesOfToml? origin values = some entries → ∀ entry ∈ entries, ComesFrom known entry.2
  | [], _, h => by
    cases h
    exact List.forall_mem_nil _
  | (key, value) :: rest, _, h => by
    rw [entriesOfToml?] at h
    obtain ⟨setting, hsetting, h⟩ := Option.bind_eq_some_iff.1 h
    obtain ⟨entries, hentries, h⟩ := Option.bind_eq_some_iff.1 h
    cases h
    intro entry hentry
    rcases Entries.mem_insert hentry with rfl | hentry
    · exact comesFrom_ofToml? horigin hsetting
    · exact comesFrom_entriesOfToml? horigin hentries entry hentry

end

end Setting

/-! ## The environment -/

section Environment

open PluginDiscovery.Text (Reader)

/-- All that a setting consists of comes from the environment. -/
def FromEnvironment : Setting → Prop := Setting.ComesFrom (· = environmentOrigin)

theorem fromEnvironment_scalar (value : Scalar) : FromEnvironment (environmentScalar value) :=
  .scalar rfl

/-- What holds of every item that can be read holds of the items of a list or a table. -/
theorem forall_mem_of_delimited {α : Type} {item : Reader α} {close : Char} {P : α → Prop}
    (hitem : ∀ text value rest, item text = some (value, rest) → P value) {text : List Char} :
    ∀ {items : List α} {rest : List Char}, delimited item close text = some (items, rest) →
      ∀ value ∈ items, P value := by
  fun_induction delimited item close text with
  | case1 text left hclose =>
    intro items rest h
    cases h
    exact List.forall_mem_nil _
  | case2 text hclose ih =>
    intro items rest h
    obtain ⟨⟨first, left⟩, hfirst, h⟩ := Option.bind_eq_some_iff.1 h
    have hvalue := hitem text first left hfirst
    simp only at h
    split at h
    · obtain ⟨final, -, h⟩ := Option.bind_eq_some_iff.1 h
      cases h
      exact List.forall_mem_singleton.2 hvalue
    · next next hnext =>
      split at h
      · next hlength =>
        obtain ⟨⟨others, final⟩, hothers, h⟩ := Option.bind_eq_some_iff.1 h
        cases h
        exact List.forall_mem_cons.2 ⟨hvalue, ih next hlength hothers⟩
      · cases h

theorem fromEnvironment_tableOf {entries : List (String × Setting)}
    (h : ∀ entry ∈ entries, FromEnvironment entry.2) : FromEnvironment (tableOf entries) := by
  have hinsert : ∀ m : NameMap Setting, (∀ entry ∈ m.entries, FromEnvironment entry.2) →
      ∀ entry ∈ (entries.foldl (fun m p => m.insert p.1 p.2) m).entries,
        FromEnvironment entry.2 := by
    induction entries with
    | nil =>
      intro m hm
      exact hm
    | cons head rest ih =>
      obtain ⟨hhead, hrest⟩ := List.forall_mem_cons.1 h
      intro m hm
      refine ih hrest (m.insert head.1 head.2) ?_
      intro entry hentry
      rcases Entries.mem_insert hentry with rfl | hentry
      · exact hhead
      · exact hm entry hentry
  exact .table rfl (hinsert .empty (List.forall_mem_nil _))

theorem fromEnvironment_of_tableEntry {value : Reader Setting}
    (hvalue : ∀ text setting rest, value text = some (setting, rest) → FromEnvironment setting)
    {text rest : List Char} {entry : String × Setting}
    (h : tableEntry value text = some (entry, rest)) : FromEnvironment entry.2 := by
  obtain ⟨⟨key, keyRest⟩, -, h⟩ := Option.bind_eq_some_iff.1 h
  obtain ⟨valueText, -, h⟩ := Option.bind_eq_some_iff.1 h
  obtain ⟨⟨setting, left⟩, hsetting, h⟩ := Option.bind_eq_some_iff.1 h
  cases h
  exact hvalue valueText setting rest hsetting

theorem fromEnvironment_settingWithin {nesting : Nat} {text rest : List Char} {setting : Setting}
    (h : settingWithin nesting text = some (setting, rest)) : FromEnvironment setting := by
  induction nesting generalizing text rest setting with
  | zero => cases h
  | succ nesting ih =>
    have hwithin : ∀ text setting rest, settingWithin nesting text = some (setting, rest) →
        FromEnvironment setting := fun text setting rest hread => ih hread
    unfold settingWithin at h
    simp only at h
    split at h
    -- the branches are in the order of the first characters that decide: a truth value, a table, a
    -- list, a text, a character, and anything else
    · cases h
      exact fromEnvironment_scalar _
    · cases h
      exact fromEnvironment_scalar _
    · obtain ⟨⟨read, left⟩, hread, h⟩ := Option.bind_eq_some_iff.1 h
      obtain ⟨⟨entries, more⟩, hentries, hread⟩ := Option.map_eq_some_iff.1 hread
      cases hread
      cases h
      refine fromEnvironment_tableOf (forall_mem_of_delimited ?_ hentries)
      intro text entry rest hentry
      exact fromEnvironment_of_tableEntry hwithin hentry
    · obtain ⟨⟨read, left⟩, hread, h⟩ := Option.bind_eq_some_iff.1 h
      obtain ⟨⟨items, more⟩, hitems, hread⟩ := Option.map_eq_some_iff.1 hread
      cases hread
      cases h
      exact .list rfl (forall_mem_of_delimited hwithin hitems)
    · obtain ⟨⟨read, left⟩, hread, h⟩ := Option.bind_eq_some_iff.1 h
      obtain ⟨⟨quoted, more⟩, -, hread⟩ := Option.map_eq_some_iff.1 hread
      cases hread
      cases h
      exact fromEnvironment_scalar _
    · cases h
      exact fromEnvironment_scalar _
    · cases h
    · cases h
      exact fromEnvironment_scalar _

theorem fromEnvironment_ofVariable (value : String) : FromEnvironment (ofVariable value) := by
  unfold ofVariable
  split
  · next setting h => exact fromEnvironment_settingWithin h
  · exact fromEnvironment_scalar _

theorem fromEnvironment_nest {setting : Setting} (h : FromEnvironment setting)
    (path : List String) : FromEnvironment (.nest environmentOrigin path setting) := by
  induction path with
  | nil => exact h
  | cons key path ih => exact .table rfl (List.forall_mem_singleton.2 ih)

theorem fromEnvironment_ofEnvironment (environment : List (String × String)) :
    FromEnvironment (ofEnvironment environment) := by
  rw [ofEnvironment_eq]
  refine Setting.ComesFrom.foldl_merge ?_ (.table rfl (List.forall_mem_nil _))
  intro setting hsetting
  obtain ⟨entry, -, hentry⟩ := List.mem_filterMap.1 hsetting
  obtain ⟨path, -, rfl⟩ := Option.map_eq_some_iff.1 hentry
  exact fromEnvironment_nest (fromEnvironment_ofVariable entry.2) path

end Environment

/-! ## The defaults -/

theorem comesFrom_toSetting (config : Config) :
    Setting.ComesFrom (· = defaultsOrigin) (toSetting config) := by
  have htext : ∀ value, Setting.ComesFrom (· = defaultsOrigin) (defaultText value) :=
    fun value => .scalar rfl
  have hpaths : ∀ item ∈ config.discovery.searchPath.map defaultText,
      Setting.ComesFrom (· = defaultsOrigin) item := by
    intro item hitem
    obtain ⟨value, -, rfl⟩ := List.mem_map.1 hitem
    exact htext value
  have hdiscovery : Setting.ComesFrom (· = defaultsOrigin) config.discovery.toSetting := by
    refine .table rfl ?_
    simp only [List.forall_mem_cons]
    exact ⟨htext _, htext _, .list rfl hpaths, htext _, List.forall_mem_nil _⟩
  have hlogging : Setting.ComesFrom (· = defaultsOrigin) config.logging.toSetting :=
    .table rfl (List.forall_mem_singleton.2 (htext _))
  refine .table rfl ?_
  simp only [List.forall_mem_cons]
  exact ⟨hdiscovery, hlogging, List.forall_mem_nil _⟩

/-! ## Failures of reading -/

/-- If a result is a failure, that tells of an origin with a property. -/
def Blames {α : Type} (known : Origin → Prop) (result : Except Failure α) : Prop :=
  ∀ failure, result = .error failure → ∃ origin, failure.origin = some origin ∧ known origin

section Blames

variable {α β : Type} {known : Origin → Prop} {setting : Setting}

theorem blames_ok (value : α) : Blames known (.ok value) := by
  intro failure h
  cases h

theorem blames_error {failure : Failure} {origin : Origin} (horigin : known origin)
    (h : failure.origin = some origin) : Blames known (.error failure : Except Failure α) := by
  intro other hother
  cases hother
  exact ⟨origin, h, horigin⟩

theorem Blames.bind {result : Except Failure α} (h : Blames known result)
    {next : α → Except Failure β} (hnext : ∀ value, Blames known (next value)) :
    Blames known (result >>= next) := by
  intro failure hfailure
  cases result with
  | error other =>
    cases hfailure
    exact h failure rfl
  | ok value => exact hnext value failure hfailure

theorem blames_foldlM {step : β → α → Except Failure β} {items : List α}
    (h : ∀ state, ∀ item ∈ items, Blames known (step state item)) (start : β) :
    Blames known (items.foldlM step start) := by
  induction items generalizing start with
  | nil => exact blames_ok start
  | cons item rest ih =>
    rw [List.foldlM_cons]
    refine (h start item List.mem_cons_self).bind ?_
    intro next
    exact ih (fun state other hother => h state other (List.mem_cons_of_mem _ hother)) next

theorem blames_mapM {read : α → Except Failure β} {items : List α}
    (h : ∀ item ∈ items, Blames known (read item)) : Blames known (items.mapM read) := by
  induction items with
  | nil => exact blames_ok []
  | cons item rest ih =>
    obtain ⟨hitem, hrest⟩ := List.forall_mem_cons.1 h
    rw [List.mapM_cons]
    refine hitem.bind fun value => (ih hrest).bind fun values => ?_
    exact blames_ok (value :: values)

theorem blames_readText (h : setting.ComesFrom known) (expected : String) (path : List String) :
    Blames known (readText expected path setting) := by
  unfold readText
  split
  · exact blames_ok _
  · exact blames_error h.origin rfl

theorem blames_readPaths (h : setting.ComesFrom known) (path : List String) :
    Blames known (readPaths path setting) := by
  unfold readPaths
  split
  · cases h with
    | list _ hitems =>
      refine blames_mapM ?_
      intro item hitem
      exact blames_readText (hitems item.1 (List.fst_mem_of_mem_zipIdx hitem)) _ _
  · exact blames_error h.origin rfl

theorem Discovery.blames_readKey (h : setting.ComesFrom known) (d : Discovery) (key : String) :
    Blames known (d.readKey (key, setting)) := by
  unfold Discovery.readKey
  simp only
  split
  case h_3 => exact (blames_readPaths h _).bind fun values => blames_ok _
  case h_5 => exact blames_error h.origin rfl
  all_goals exact (blames_readText h _ _).bind fun value => blames_ok _

theorem Discovery.blames_readPlace (h : setting.ComesFrom known) (d : Discovery) (index : Nat) :
    Blames known (d.readPlace (setting, index)) := by
  unfold Discovery.readPlace
  simp only
  split
  case h_3 => exact (blames_readPaths h _).bind fun values => blames_ok _
  case h_5 => exact blames_ok d
  all_goals exact (blames_readText h _ _).bind fun value => blames_ok _

theorem Logging.blames_readKey (h : setting.ComesFrom known) (l : Logging) (key : String) :
    Blames known (l.readKey (key, setting)) := by
  unfold Logging.readKey
  simp only
  split
  · exact (blames_readText h _ _).bind fun value => blames_ok _
  · exact blames_error h.origin rfl

theorem Logging.blames_readPlace (h : setting.ComesFrom known) (l : Logging) (index : Nat) :
    Blames known (l.readPlace (setting, index)) := by
  unfold Logging.readPlace
  simp only
  split
  · exact (blames_readText h _ _).bind fun value => blames_ok _
  · exact blames_ok l

/-- The entries of a table are read key by key, and the items of a list place by place. -/
theorem blames_section {readKey : α → String × Setting → Except Failure α}
    {readPlace : α → Setting × Nat → Except Failure α}
    (hkey : ∀ {setting : Setting}, setting.ComesFrom known →
      ∀ state key, Blames known (readKey state (key, setting)))
    (hplace : ∀ {setting : Setting}, setting.ComesFrom known →
      ∀ state index, Blames known (readPlace state (setting, index)))
    (h : setting.ComesFrom known) (start : α) (path : List String) (expected : String) :
    Blames known (match setting with
      | .table _ entries => entries.foldlM readKey start
      | .list _ items => items.zipIdx.foldlM readPlace start
      | setting => .error (mismatch path setting expected)) := by
  cases h with
  | scalar horigin => exact blames_error horigin rfl
  | list _ hitems =>
    refine blames_foldlM ?_ start
    intro state item hitem
    exact hplace (hitems item.1 (List.fst_mem_of_mem_zipIdx hitem)) state item.2
  | table _ hentries =>
    refine blames_foldlM ?_ start
    intro state entry hentry
    exact hkey (hentries entry hentry) state entry.1

theorem Discovery.blames_read (h : setting.ComesFrom known) :
    Blames known (Discovery.read setting) :=
  blames_section blames_readKey blames_readPlace h {} ["discovery"] "struct DiscoveryConfig"

theorem Logging.blames_read (h : setting.ComesFrom known) : Blames known (Logging.read setting) :=
  blames_section blames_readKey blames_readPlace h {} ["logging"] "struct LoggingConfig"

theorem blames_readSection (h : setting.ComesFrom known) (config : Config) (key : String) :
    Blames known (readSection config (key, setting)) := by
  unfold readSection
  simp only
  split
  · exact (Discovery.blames_read h).bind fun value => blames_ok _
  · exact (Logging.blames_read h).bind fun value => blames_ok _
  · exact blames_error h.origin rfl

theorem blames_ofEntries {entries : List (String × Setting)}
    (h : ∀ entry ∈ entries, entry.2.ComesFrom known) : Blames known (ofEntries entries) := by
  refine blames_foldlM ?_ ({} : Config)
  intro config entry hentry
  exact blames_readSection (h entry hentry) config entry.1

end Blames

/-! ## Layers -/

variable {known : Origin → Prop}

/-- A layer has its settings, or the failure to read it, from origins with a property. -/
structure LayerFrom (known : Origin → Prop) (layer : Layer) : Prop where
  /-- The settings that the layer gives. -/
  settings : ∀ setting, layer = .ok setting → setting.ComesFrom known
  /-- The failure if it gives none. -/
  blames : Blames known layer

theorem layerFrom_ok {setting : Setting} (h : setting.ComesFrom known) :
    LayerFrom known (.ok setting) := by
  refine ⟨?_, blames_ok setting⟩
  intro other hother
  cases hother
  exact h

theorem layerFrom_layerOf {origin : Origin} (horigin : known origin) (text : String) :
    LayerFrom known (layerOf origin text) := by
  unfold layerOf
  split
  · next entries h =>
    obtain ⟨document, -, hentries⟩ := Option.bind_eq_some_iff.1 h
    exact layerFrom_ok (.table horigin (Setting.comesFrom_entriesOfToml? horigin hentries))
  · refine ⟨?_, blames_error horigin rfl⟩
    intro setting h
    cases h

/-- The failures to read merged layers tell of origins of the layers or of the defaults. -/
theorem origins_of_failures {layers : List Layer}
    (hlayers : ∀ layer ∈ layers, LayerFrom known layer) (hdefaults : known defaultsOrigin)
    {failures : List Failure} (h : ofLayers layers = .error failures) :
    ∀ failure ∈ failures, ∃ origin, failure.origin = some origin ∧ known origin := by
  rw [ofLayers_eq] at h
  split at h
  · have hsettings : ∀ setting ∈ layers.filterMap settingOf?, setting.ComesFrom known := by
      intro setting hsetting
      obtain ⟨layer, hlayer, hsome⟩ := List.mem_filterMap.1 hsetting
      cases layer with
      | error failure => cases hsome
      | ok other =>
        cases hsome
        exact (hlayers _ hlayer).settings setting rfl
    have hstart : Setting.ComesFrom known (toSetting {}) :=
      (comesFrom_toSetting {}).mono fun origin horigin => horigin ▸ hdefaults
    have hmerged := Setting.ComesFrom.foldl_merge hsettings hstart
    generalize (layers.filterMap settingOf?).foldl Setting.merge (toSetting {}) = merged
      at h hmerged
    cases hmerged with
    | table _ hentries =>
      have hblames := blames_ofEntries hentries
      rw [readSettings] at h
      cases hread : ofEntries _ with
      | ok config =>
        rw [hread] at h
        cases h
      | error failure =>
        rw [hread] at h
        cases h
        exact List.forall_mem_singleton.2 (hblames failure hread)
    | scalar horigin =>
      cases h
      exact List.forall_mem_singleton.2 ⟨_, rfl, horigin⟩
    | list horigin _ =>
      cases h
      exact List.forall_mem_singleton.2 ⟨_, rfl, horigin⟩
  · cases h
    intro failure hfailure
    obtain ⟨layer, hlayer, hsome⟩ := List.mem_filterMap.1 hfailure
    cases layer with
    | ok setting => cases hsome
    | error other =>
      cases hsome
      exact (hlayers _ hlayer).blames failure rfl

end PluginDiscovery.Config
