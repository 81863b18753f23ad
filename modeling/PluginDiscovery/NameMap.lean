/-!
# Maps keyed by name

A finite map from names to values, kept as a list of pairs in strictly increasing order of the
names. Names are ordered by code point, which is also the order of their UTF-8 bytes. The order is
part of the type, so two maps that answer every look-up alike are the same map
(`NameMap.ext_find?`), and whatever is listed from a map is listed in that order.

The main statements say what an insertion does to look-ups (`NameMap.find?_insert`) and that a
look-up finds exactly the listed pairs (`NameMap.mem_entries_iff`).
-/

namespace PluginDiscovery

/-- The entries of a map: no name occurs twice, and names increase. -/
def Increasing {α : Type} (entries : List (String × α)) : Prop :=
  entries.Pairwise fun a b => a.1 < b.1

namespace Entries

variable {α : Type}

/-- Puts a value under a name, in place of the value that was there. -/
def insert (name : String) (value : α) : List (String × α) → List (String × α)
  | [] => [(name, value)]
  | entry :: rest =>
    if name < entry.1 then (name, value) :: entry :: rest
    else if name = entry.1 then (name, value) :: rest
    else entry :: insert name value rest

/-- The value under a name. -/
def find? (name : String) (entries : List (String × α)) : Option α :=
  (entries.find? fun entry => entry.1 = name).map (·.2)

theorem find?_cons (name key : String) (value : α) (rest : List (String × α)) :
    find? name ((key, value) :: rest) = if name = key then some value else find? name rest := by
  by_cases h : key = name
  · simp [find?, h]
  · simp [find?, h, Ne.symm h]

theorem mem_of_find? {name : String} {value : α} {entries : List (String × α)}
    (h : find? name entries = some value) : (name, value) ∈ entries := by
  obtain ⟨entry, hentry, rfl⟩ := Option.map_eq_some_iff.1 h
  have hname : entry.1 = name := by simpa using List.find?_some hentry
  rw [← hname]
  exact List.mem_of_find?_eq_some hentry

theorem mem_insert {name : String} {value : α} {entries : List (String × α)} {p : String × α}
    (h : p ∈ insert name value entries) : p = (name, value) ∨ p ∈ entries := by
  induction entries with
  | nil => simpa [insert] using h
  | cons entry rest ih =>
    unfold insert at h
    split at h
    · simpa using h
    · split at h
      · rcases List.mem_cons.1 h with h | h
        · exact .inl h
        · exact .inr (List.mem_cons_of_mem _ h)
      · rcases List.mem_cons.1 h with h | h
        · exact .inr (h ▸ List.mem_cons_self)
        · exact (ih h).imp id (List.mem_cons_of_mem _)

/-- Insertion keeps the order. -/
theorem increasing_insert {name : String} {value : α} {entries : List (String × α)}
    (h : Increasing entries) : Increasing (insert name value entries) := by
  induction entries with
  | nil => exact List.pairwise_singleton _ _
  | cons entry rest ih =>
    have hrest := List.pairwise_cons.1 h
    unfold insert
    split
    · next hlt =>
      refine List.pairwise_cons.2 ⟨fun p hp => ?_, h⟩
      rcases List.mem_cons.1 hp with rfl | hp
      · exact hlt
      · exact String.lt_trans hlt (hrest.1 p hp)
    · next hlt =>
      split
      · next heq =>
        exact List.pairwise_cons.2 ⟨fun p hp => heq ▸ hrest.1 p hp, hrest.2⟩
      · next hne =>
        refine List.pairwise_cons.2 ⟨fun p hp => ?_, ih hrest.2⟩
        rcases mem_insert hp with rfl | hp
        · rcases Std.lt_trichotomy name entry.1 with h | h | h
          · exact absurd h hlt
          · exact absurd h hne
          · exact h
        · exact hrest.1 p hp

theorem find?_insert (name other : String) (value : α) (entries : List (String × α)) :
    find? other (insert name value entries) =
      if other = name then some value else find? other entries := by
  induction entries with
  | nil => by_cases h : other = name <;> simp [insert, find?, h, eq_comm]
  | cons entry rest ih =>
    unfold insert
    split
    · by_cases h : other = name <;> simp [find?, List.find?_cons, h, eq_comm]
    · split
      · next heq =>
        by_cases h : other = name
        · simp [find?, h]
        · have hname : ¬name = other := fun e => h e.symm
          have hentry : ¬entry.1 = other := heq ▸ hname
          simp [find?, h, hname, hentry]
      · next hne =>
        by_cases hentry : entry.1 = other
        · have h : ¬other = name := fun e => hne (e ▸ hentry).symm
          simp [find?, hentry, h]
        · simpa [find?, List.find?_cons, hentry] using ih

/-- Where names increase, a look-up finds exactly the listed pairs. -/
theorem find?_eq_some_iff {entries : List (String × α)} (h : Increasing entries) {name : String}
    {value : α} : find? name entries = some value ↔ (name, value) ∈ entries := by
  induction entries with
  | nil => simp [find?]
  | cons entry rest ih =>
    have hrest := List.pairwise_cons.1 h
    by_cases heq : entry.1 = name
    · have hnot : (name, value) ∉ rest := fun hmem =>
        String.lt_irrefl name (heq ▸ hrest.1 (name, value) hmem)
      obtain ⟨key, val⟩ := entry
      simp only at heq
      subst heq
      simp [find?, hnot, eq_comm]
    · have hne : ¬(name, value) = entry := fun e => heq (e ▸ rfl)
      simpa [find?, List.find?_cons, heq, hne] using ih hrest.2

/-- Where names increase, the first one does not come again. -/
theorem find?_eq_none_of_increasing_cons {name : String} {value : α} {rest : List (String × α)}
    (h : Increasing ((name, value) :: rest)) : find? name rest = none := by
  obtain ⟨hfirst, hrest⟩ := List.pairwise_cons.1 h
  cases hfind : find? name rest with
  | none => rfl
  | some other =>
    have hmem := (find?_eq_some_iff hrest).1 hfind
    exact absurd (hfirst _ hmem) (String.lt_irrefl name)

/-- Increasing entries are determined by which pairs they hold. -/
theorem eq_of_mem_iff {xs ys : List (String × α)} (hx : Increasing xs) (hy : Increasing ys)
    (h : ∀ p, p ∈ xs ↔ p ∈ ys) : xs = ys := by
  induction xs generalizing ys with
  | nil =>
    cases ys with
    | nil => rfl
    | cons y ys => simpa using h y
  | cons x xs ih =>
    cases ys with
    | nil => simpa using h x
    | cons y ys =>
      have hxs := List.pairwise_cons.1 hx
      have hys := List.pairwise_cons.1 hy
      have hxy : x = y := by
        rcases List.mem_cons.1 ((h x).1 List.mem_cons_self) with e | hmem
        · exact e
        · rcases List.mem_cons.1 ((h y).2 List.mem_cons_self) with e | hmem'
          · exact e.symm
          · exact absurd (hys.1 x hmem) (String.lt_asymm (hxs.1 y hmem'))
      subst hxy
      refine congrArg _ (ih hxs.2 hys.2 fun p => ⟨fun hp => ?_, fun hp => ?_⟩)
      · rcases List.mem_cons.1 ((h p).1 (List.mem_cons_of_mem _ hp)) with rfl | hp'
        · exact absurd (hxs.1 p hp) (String.lt_irrefl _)
        · exact hp'
      · rcases List.mem_cons.1 ((h p).2 (List.mem_cons_of_mem _ hp)) with rfl | hp'
        · exact absurd (hys.1 p hp) (String.lt_irrefl _)
        · exact hp'

end Entries

/-- A finite map from names to values, listed in increasing order of the names. -/
structure NameMap (α : Type) where
  /-- The pairs of the map. -/
  entries : List (String × α)
  /-- The names increase, so none occurs twice. -/
  increasing : Increasing entries
deriving DecidableEq

namespace NameMap

variable {α : Type}

/-- The map that holds nothing. -/
def empty : NameMap α := ⟨[], List.Pairwise.nil⟩

instance : EmptyCollection (NameMap α) := ⟨empty⟩

instance : Inhabited (NameMap α) := ⟨empty⟩

/-- Puts a value under a name; a value that was there before is replaced. -/
def insert (m : NameMap α) (name : String) (value : α) : NameMap α :=
  ⟨Entries.insert name value m.entries, Entries.increasing_insert m.increasing⟩

/-- The value under a name. -/
def find? (m : NameMap α) (name : String) : Option α := Entries.find? name m.entries

/-- Whether there is a value under a name. -/
def contains (m : NameMap α) (name : String) : Bool := (m.find? name).isSome

/-- The names, in increasing order. -/
def names (m : NameMap α) : List String := m.entries.map (·.1)

/-- The values, in increasing order of their names. -/
def values (m : NameMap α) : List α := m.entries.map (·.2)

/-- The number of names. -/
def size (m : NameMap α) : Nat := m.entries.length

/-- Whether the map holds nothing. -/
def isEmpty (m : NameMap α) : Bool := m.entries.isEmpty

/-- The map of a list of pairs; of several values for one name the last one stays. -/
def ofList (pairs : List (String × α)) : NameMap α :=
  pairs.foldl (fun m p => m.insert p.1 p.2) empty

@[simp] theorem find?_empty (name : String) : (empty : NameMap α).find? name = none := rfl

theorem find?_insert (m : NameMap α) (name other : String) (value : α) :
    (m.insert name value).find? other = if other = name then some value else m.find? other :=
  Entries.find?_insert name other value m.entries

theorem mem_entries_iff (m : NameMap α) {name : String} {value : α} :
    (name, value) ∈ m.entries ↔ m.find? name = some value :=
  (Entries.find?_eq_some_iff m.increasing).symm

/-- Maps that answer every look-up alike are equal. -/
theorem ext_find? {m n : NameMap α} (h : ∀ name, m.find? name = n.find? name) : m = n := by
  have hentries : m.entries = n.entries :=
    Entries.eq_of_mem_iff m.increasing n.increasing fun p => by
      rw [show p = (p.1, p.2) from rfl, m.mem_entries_iff, n.mem_entries_iff, h]
  cases m
  cases n
  simpa using hentries

theorem mem_names_iff (m : NameMap α) {name : String} :
    name ∈ m.names ↔ ∃ value, m.find? name = some value := by
  simp [names, ← mem_entries_iff]

/-- Pairs of distinct names are all kept, over what the map held before. -/
theorem find?_foldl_insert_iff {pairs : List (String × α)} (h : (pairs.map (·.1)).Nodup)
    (m : NameMap α) {name : String} {value : α} :
    (pairs.foldl (fun m p => m.insert p.1 p.2) m).find? name = some value ↔
      (name, value) ∈ pairs ∨ (name ∉ pairs.map (·.1) ∧ m.find? name = some value) := by
  induction pairs generalizing m with
  | nil => simp
  | cons pair rest ih =>
    obtain ⟨hfirst, hrest⟩ := List.nodup_cons.1 h
    rw [List.foldl_cons, ih hrest, find?_insert, List.map_cons, List.mem_cons, List.mem_cons]
    by_cases hname : name = pair.1
    · subst hname
      obtain ⟨key, held⟩ := pair
      have hnot : (key, value) ∉ rest := by
        intro hmem
        exact hfirst (List.mem_map.2 ⟨(key, value), hmem, rfl⟩)
      simp [hfirst, hnot, eq_comm]
    · have hne : (name, value) ≠ pair := fun heq => hname (congrArg Prod.fst heq)
      simp [hname, hne]

/-- The map of pairs of distinct names holds exactly those pairs. -/
theorem find?_ofList_eq_some_iff {pairs : List (String × α)} (h : (pairs.map (·.1)).Nodup)
    {name : String} {value : α} :
    (ofList pairs).find? name = some value ↔ (name, value) ∈ pairs := by
  rw [ofList, find?_foldl_insert_iff h]
  simp

/-- Names are listed in strictly increasing order. -/
theorem names_pairwise (m : NameMap α) : m.names.Pairwise (· < ·) :=
  List.pairwise_map.2 m.increasing

/-- No name is listed twice. -/
theorem names_nodup (m : NameMap α) : m.names.Nodup :=
  m.names_pairwise.imp fun {a b} (h : a < b) (e : a = b) => String.lt_irrefl b (e ▸ h)

end NameMap

end PluginDiscovery
