/-
# Options and settings

Options belong to a root of rules; settings are what a program is configured with. The options made
from settings take over the two switches and the default culture.
-/
import MemberRules.Culture.Basic
import MemberRules.Model.Hint
import MemberRules.Text.Utf8

namespace MemberRules

/-- The options of a root. -/
structure Options where
  /-- The resource for messages that no type or rule names one for. -/
  sharedResource : Option String := none
  /-- The culture of all messages whose rule sets none. -/
  sharedCulture : Option Culture := none
  conventionalKeys : Bool := true
  /-- The keys of messages in place of the conventional ones, by type, member and check. -/
  keys : List (String × String) := []
  /-- Whether a member that is selected must get a rule. -/
  enforce : Bool := true
  /-- The culture of messages when nothing else sets one. -/
  defaultCulture : Option Culture := none
  deriving Inhabited

/-- The settings of a program. -/
structure Settings where
  level : String := "INFO"
  json : Bool := false
  culture : String := "en_US"
  conventionalKeys : Bool := true
  enforce : Bool := true
  deriving DecidableEq, Repr, Inhabited

namespace Settings

/-- Texts that stand for truth values. -/
def truthTexts : List (String × Bool) :=
  [("1", true), ("on", true), ("t", true), ("true", true), ("y", true), ("yes", true),
    ("0", false), ("off", false), ("f", false), ("false", false), ("n", false), ("no", false)]

/-- Reads a text: one itself, or bytes that encode one. -/
def text? : Value → Option String
  | .bytes bs => Text.decode? bs
  | v => v.text?

/-- Reads a number that stands for a truth value: zero or one. -/
def truthNumber? (x : Number.Exact) : Option Bool :=
  if x.compare? (.ofInt 0) == some .eq then some false
  else if x.compare? (.ofInt 1) == some .eq then some true
  else none

/-- Reads a truth value: one itself, zero or one, or a word for it in any case. -/
def truth? (v : Value) : Option Bool :=
  match text? v with
  | some s => truthTexts.lookup (Text.lower s)
  | none => v.number?.bind truthNumber?

/-- The value of a setting: the one under its very name, or else the last one whose name differs
in the case of its letters only. -/
def named? (named : Details) (name : String) : Option Value :=
  (named.lookup name).or
    ((named.reverse.find? fun e => Text.lower e.1 == Text.lower name).map (·.2))

/-- A setting of a name, or the default. -/
def read (named : Details) (name : String) (default : α) (reader : Value → Option α) :
    Except Fault α :=
  match named? named name with
  | none => .ok default
  | some v =>
    match reader v with
    | some a => .ok a
    | none => .error .badSettings

/-- Settings from values by name; names that are no settings are left out of account. -/
def ofValues (named : Details) : Except Fault Settings := do
  let d : Settings := {}
  return {
    level := ← read named "LOG_LEVEL" d.level text?
    json := ← read named "LOG_JSON" d.json truth?
    culture := ← read named "DEFAULT_CULTURE" d.culture text?
    conventionalKeys := ← read named "USE_CONVENTIONAL_KEYS" d.conventionalKeys truth?
    enforce := ← read named "ENFORCE_CONFIGURATION" d.enforce truth? }

/-- The default culture of the settings. -/
def defaultCulture (s : Settings) : Except Fault Culture :=
  match Culture.find (if s.culture.contains '_' then "_" else "-") s.culture with
  | .ok c => .ok c
  | .error .malformed => .error .badValue
  | .error .unknown => .error .unknownLocale

/-- The options that settings stand for. -/
def options (s : Settings) : Except Fault Options := do
  return {
    conventionalKeys := s.conventionalKeys
    enforce := s.enforce
    defaultCulture := some (← s.defaultCulture) }

end Settings
end MemberRules
