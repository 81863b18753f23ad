import PluginDiscovery.Event

/-!
# The note log

The texts of the notes that a load has made, in the order in which they were first made. A text that
is already there is not added again, so the log reads as a list of distinct facts.
-/

namespace PluginDiscovery

/-- An item at the end of a list is a first occurrence if it has not occurred before. -/
theorem eraseDups_concat {α : Type} [DecidableEq α] (items : List α) (item : α) :
    (items ++ [item]).eraseDups = items.eraseDups ++ if item ∈ items then [] else [item] := by
  rw [List.eraseDups_append]
  by_cases h : item ∈ items <;> simp [List.removeAll, List.eraseDups_cons, h]

/-- Distinct texts, oldest first. -/
structure NoteLog where
  /-- The texts. -/
  entries : List String
  /-- None occurs twice. -/
  nodup : entries.Nodup
deriving DecidableEq

namespace NoteLog

/-- The log without notes. -/
def empty : NoteLog := ⟨[], List.Pairwise.nil⟩

instance : Inhabited NoteLog := ⟨empty⟩

/-- Adds a text, unless it is there. -/
def record (log : NoteLog) (text : String) : NoteLog :=
  if h : text ∈ log.entries then log
  else ⟨log.entries ++ [text], by
    refine List.nodup_append.2 ⟨log.nodup, List.pairwise_singleton _ _, fun a ha b hb => ?_⟩
    rw [List.mem_singleton.1 hb]
    exact fun e => h (e ▸ ha)⟩

/-- Whether a text would be new to the log. -/
def isNew (log : NoteLog) (text : String) : Bool := text ∉ log.entries

/-- Adds the notes that events make. -/
def recordAll (log : NoteLog) (events : List Event) : NoteLog :=
  (events.filterMap Event.note?).foldl (fun log note => log.record note.text) log

/-- The log of a sequence of events. -/
def ofEvents (events : List Event) : NoteLog := empty.recordAll events

/-- The number of texts. -/
def size (log : NoteLog) : Nat := log.entries.length

end NoteLog

end PluginDiscovery
