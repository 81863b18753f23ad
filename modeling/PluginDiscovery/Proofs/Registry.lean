import Mathlib.Data.List.Dedup
import Mathlib.Data.List.Induction
import PluginDiscovery.Proofs.Bytes
import PluginDiscovery.Registry

/-!
# The contents of a registry

The registry of a list of plugins holds under each name the last plugin that has the name
(`get?_ofPlugins`). Where names are distinct it holds exactly the plugins of the list
(`get?_ofPlugins_eq_some_iff`). What is listed from a registry are the plugins that it holds, in
increasing order of their names (`mem_toList_iff`, `pairwise_names_toList`). So all that can be read
from a registry tells of one map (`views_agree`).
-/

namespace PluginDiscovery.Registry

/-- Registries that hold the same plugins under the same names are equal. -/
theorem ext_get? {r s : Registry} (h : ∀ name, r.get? name = s.get? name) : r = s := by
  have hplugins : r.plugins = s.plugins := NameMap.ext_find? h
  cases r
  cases s
  simpa using hplugins

theorem ofPlugins_concat (plugins : List Plugin) (plugin : Plugin) :
    ofPlugins (plugins ++ [plugin]) = (ofPlugins plugins).insert plugin := by
  simp [ofPlugins, List.foldl_append]

/-- Of several plugins of one name the last one stays. -/
theorem get?_ofPlugins (plugins : List Plugin) (name : String) :
    (ofPlugins plugins).get? name = plugins.reverse.find? (·.name = name) := by
  induction plugins using List.reverseRecOn with
  | nil => rfl
  | append_singleton plugins plugin ih =>
    rw [ofPlugins_concat, get?_insert, List.reverse_concat, List.find?_cons]
    by_cases h : plugin.name = name
    · rw [if_pos h.symm, decide_eq_true h]
    · rw [if_neg (Ne.symm h), decide_eq_false h]
      exact ih

/-- Plugins of distinct names are all kept. -/
theorem get?_ofPlugins_eq_some_iff {plugins : List Plugin} (h : (plugins.map (·.name)).Nodup)
    {name : String} {plugin : Plugin} :
    (ofPlugins plugins).get? name = some plugin ↔ plugin ∈ plugins ∧ plugin.name = name := by
  have hfound : ∀ {other : Plugin}, plugins.reverse.find? (·.name = name) = some other →
      other ∈ plugins ∧ other.name = name := fun hfind =>
    ⟨List.mem_reverse.1 (List.mem_of_find?_eq_some hfind), by simpa using List.find?_some hfind⟩
  rw [get?_ofPlugins]
  refine ⟨hfound, fun ⟨hmem, hname⟩ => ?_⟩
  cases hfind : plugins.reverse.find? (·.name = name) with
  | none =>
    have hnot := List.find?_eq_none.1 hfind plugin (List.mem_reverse.2 hmem)
    exact absurd (decide_eq_true hname) hnot
  | some other =>
    obtain ⟨hother, hsame⟩ := hfound hfind
    rw [List.inj_on_of_nodup_map h hother hmem (hsame.trans hname.symm)]

theorem mem_names_ofPlugins {plugins : List Plugin} {name : String} :
    name ∈ (ofPlugins plugins).names ↔ name ∈ plugins.map (·.name) := by
  rw [names, NameMap.mem_names_iff]
  change (∃ plugin, (ofPlugins plugins).get? name = some plugin) ↔ _
  rw [get?_ofPlugins, ← Option.isSome_iff_exists, List.find?_isSome]
  simp

/-! ## Listing -/

theorem mem_toList_iff {r : Registry} {plugin : Plugin} :
    plugin ∈ r.toList ↔ r.get? plugin.name = some plugin := by
  constructor
  · intro hmem
    obtain ⟨entry, hentry, rfl⟩ := List.mem_map.1 hmem
    have hfind := (NameMap.mem_entries_iff _).1 hentry
    rw [name_of_get? hfind]
    exact hfind
  · intro hget
    exact List.mem_map.2 ⟨(plugin.name, plugin), (NameMap.mem_entries_iff _).2 hget, rfl⟩

theorem map_name_toList (r : Registry) : r.toList.map (·.name) = r.names := by
  have hentries := congrArg (List.map (·.1)) r.entries_eq
  rw [entries, List.map_map] at hentries
  exact hentries

theorem pairwise_names_toList (r : Registry) : (r.toList.map (·.name)).Pairwise (· < ·) := by
  rw [map_name_toList]
  exact NameMap.names_pairwise _

/-! ## Sizes -/

theorem size_eq_length_names (r : Registry) : r.size = r.names.length := by
  simp [size, names, NameMap.size, NameMap.names]

/-- The size of a registry is the number of distinct names. -/
theorem size_ofPlugins (plugins : List Plugin) :
    (ofPlugins plugins).size = (plugins.map (·.name)).dedup.length := by
  rw [size_eq_length_names]
  refine ((List.perm_ext_iff_of_nodup (NameMap.names_nodup _) (List.nodup_dedup _)).2 ?_).length_eq
  intro name
  rw [List.mem_dedup]
  exact mem_names_ofPlugins

/-! ## Views of one map -/

/-- The plugin is the last one of its name. -/
def LastNamed (name : String) (plugin : Plugin) (plugins : List Plugin) : Prop :=
  ∃ before after, plugins = before ++ plugin :: after ∧ plugin.name = name ∧
    ∀ other ∈ after, other.name ≠ name

theorem get?_ofPlugins_iff_lastNamed {plugins : List Plugin} {name : String} {plugin : Plugin} :
    (ofPlugins plugins).get? name = some plugin ↔ LastNamed name plugin plugins := by
  rw [get?_ofPlugins, List.find?_eq_some_iff_append]
  constructor
  · rintro ⟨hname, after, before, hsplit, hafter⟩
    refine ⟨before.reverse, after.reverse, ?_, of_decide_eq_true hname, ?_⟩
    · rw [← plugins.reverse_reverse, hsplit]
      simp
    · intro other hother
      simpa using hafter other (List.mem_reverse.1 hother)
  · rintro ⟨before, after, rfl, hname, hafter⟩
    refine ⟨decide_eq_true hname, after.reverse, before.reverse, by simp, ?_⟩
    intro other hother
    simpa using hafter other (List.mem_reverse.1 hother)

theorem mem_entries_iff {r : Registry} {name : String} {plugin : Plugin} :
    (name, plugin) ∈ r.entries ↔ r.get? name = some plugin := by
  rw [entries_eq]
  exact NameMap.mem_entries_iff _

theorem contains_iff {r : Registry} {name : String} : r.contains name = true ↔ name ∈ r.names := by
  rw [contains, NameMap.contains, Option.isSome_iff_exists]
  exact (NameMap.mem_names_iff _).symm

theorem pairwise_bytes_names (r : Registry) : (r.names.map bytesOf).Pairwise (· < ·) := by
  rw [List.pairwise_map]
  refine (NameMap.names_pairwise r.plugins).imp ?_
  intro name later hlt
  exact bytesOf_lt_iff.2 hlt

/-- All that is read from a registry tells of the map in which the last plugin of each name that
occurs in a list stands under this name. -/
structure Views (plugins : List Plugin) (r : Registry) : Prop where
  /-- A look-up gives the last plugin of a name. -/
  get?_eq : ∀ name plugin, r.get? name = some plugin ↔ LastNamed name plugin plugins
  /-- The names are in the order of their bytes, each once. -/
  names_increase : (r.names.map bytesOf).Pairwise (· < ·)
  /-- They are the names of the plugins. -/
  mem_names : ∀ name, name ∈ r.names ↔ ∃ plugin ∈ plugins, plugin.name = name
  /-- The list of plugins is in the order of the names. -/
  names_toList : r.toList.map (·.name) = r.names
  /-- So are the entries. -/
  names_entries : r.entries.map (·.1) = r.names
  /-- The entries hold the plugins of the list. -/
  plugins_entries : r.entries.map (·.2) = r.toList
  /-- Every plugin stands under its own name. -/
  name_of_entry : ∀ entry ∈ r.entries, entry.2.name = entry.1
  /-- The entries are what look-ups give. -/
  mem_entries : ∀ name plugin, (name, plugin) ∈ r.entries ↔ r.get? name = some plugin
  /-- What is contained are the names. -/
  contains_eq : ∀ name, r.contains name = true ↔ name ∈ r.names
  /-- The size counts each name once. -/
  size_eq : r.size = (plugins.map (·.name)).dedup.length

/-- Whatever plugins a registry is made of, also where several of them have one name, its views
agree. -/
theorem views_agree (plugins : List Plugin) : Views plugins (ofPlugins plugins) where
  get?_eq _ _ := get?_ofPlugins_iff_lastNamed
  names_increase := pairwise_bytes_names _
  mem_names name := by
    rw [mem_names_ofPlugins, List.mem_map]
  names_toList := map_name_toList _
  names_entries := by
    rw [entries_eq]
    rfl
  plugins_entries := by
    rw [entries_eq]
    rfl
  name_of_entry := by
    rintro ⟨name, plugin⟩ hentry
    exact name_of_get? (mem_entries_iff.1 hentry)
  mem_entries _ _ := mem_entries_iff
  contains_eq _ := contains_iff
  size_eq := size_ofPlugins plugins

end PluginDiscovery.Registry
