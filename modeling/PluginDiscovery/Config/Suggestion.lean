import PluginDiscovery.Text.Similarity

/-!
# Suggestions for misspelt keys

The key to suggest in place of an unknown one is the most similar of the valid keys, if any is
similar enough. Of several equally similar ones it is the last.
-/

namespace PluginDiscovery.Config

variable {α : Type} [LT α] [DecidableLT α]

/-- The last of the keys with the highest score, among those that score above the threshold,
together with its score. -/
def bestAbove (score : String → α) (threshold : α) (keys : List String) : Option (String × α) :=
  keys.foldl
    (fun best key =>
      if threshold < score key then
        match best with
        | none => some (key, score key)
        | some (_, high) => if score key < high then best else some (key, score key)
      else best)
    none

/-- The last of the keys with the highest score, if it scores above the threshold. -/
def closest? (score : String → α) (threshold : α) (keys : List String) : Option String :=
  (bestAbove score threshold keys).map (·.1)

/-- Keys that are not more similar than this are not suggested. -/
def suggestionThreshold : Float := 0.75

/-- The valid key to suggest for an unknown one. -/
def suggest? (unknown : String) (valid : List String) : Option String :=
  closest? (Text.similarity unknown) suggestionThreshold valid

end PluginDiscovery.Config
