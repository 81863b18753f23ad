import PluginDiscovery.Fault
import PluginDiscovery.Json.Basic

/-!
# Events

What the program does is reported as a sequence of events. Each has a severity, a target, which
names the part of the program that it comes from, and fields. The field `message` says what
happened.
-/

namespace PluginDiscovery

/-- How severe an event is. -/
inductive Severity where
  /-- A routine step. -/
  | debug
  /-- A result. -/
  | info
  /-- Something that was skipped. -/
  | warn
  /-- A failure. -/
  | error
deriving DecidableEq, Repr

/-- The word for a severity. -/
def Severity.label : Severity → String
  | debug => "DEBUG"
  | info => "INFO"
  | warn => "WARN"
  | error => "ERROR"

/-- A remark about a load: routine, or about something that was skipped. -/
structure Note where
  /-- Whether it is about something that was skipped. -/
  skipping : Bool := false
  /-- The remark. -/
  text : String
deriving DecidableEq, Repr

/-- What happened. -/
inductive Event where
  /-- A remark was made. -/
  | noted (note : Note)
  /-- A coherence rule was violated so many times. -/
  | ruleViolated (rule : String) (count : Nat)
  /-- A load succeeded; its generation and how much it found and skipped. -/
  | loaded (generation extensionPoints implementations skipped : Nat)
  /-- A load failed. -/
  | loadFailed (report : FaultReport)
  /-- A configuration with so many search path roots was loaded. -/
  | configured (roots : Nat)
deriving DecidableEq

namespace Event

/-- How severe the event is. -/
def severity : Event → Severity
  | noted note => if note.skipping then .warn else .debug
  | ruleViolated _ _ => .debug
  | loaded _ _ _ _ => .info
  | loadFailed _ => .error
  | configured _ => .debug

/-- The part of the program that the event comes from. -/
def target : Event → String
  | noted _ => "spindle::discovery"
  | ruleViolated _ _ => "spindle_plugin::coherence"
  | loaded _ _ _ _ => "spindle_plugin::factory"
  | loadFailed _ => "spindle_plugin::factory"
  | configured _ => "spindle_config"

/-- The fields of the event. -/
def fields : Event → List (String × Json)
  | noted note => [("message", .string note.text)]
  | ruleViolated rule count =>
    [("message", .string "coherence rule violated"), ("rule", .string rule),
      ("count", .integer count)]
  | loaded generation extensionPoints implementations skipped =>
    [("message", .string "plugin registries loaded"), ("generation", .integer generation),
      ("interfaces", .integer extensionPoints), ("implementations", .integer implementations),
      ("skipped", .integer skipped)]
  | loadFailed report =>
    [("message", .string "plugin load failed, registries left unchanged"),
      ("code", .string report.code.label), ("problems", .integer report.size),
      ("details", .string report.message)]
  | configured roots =>
    [("message", .string "spindle configuration loaded"), ("roots", .integer roots)]

/-- The note that an event makes, if it makes one. -/
def note? : Event → Option Note
  | noted note => some note
  | _ => none

end Event

end PluginDiscovery
