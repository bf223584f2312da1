import Variorum.Decimal.Numeral
import Variorum.Text.Blank

/-!
# Settings

How a suite is resolved. Variables of the environment can override some of the settings.
-/

namespace Variorum

/-- The settings of a resolution. `parallel` says that subjects need not report in their order. -/
structure Config where
  maxDepth : Nat := 256
  prune : Bool := false
  parallel : Bool := false
  preamble : Option String := none
  deriving DecidableEq, Repr

namespace Config

/-- The number of a variable; a sign is allowed, and it has to be a machine word. -/
def readDepth? (raw : String) : Option Nat :=
  match Text.trimChars raw.toList with
  | '-' :: _ => none
  | cs =>
    match Decimal.readInt? Integer.wordCount cs with
    | some n => if n < Integer.wordCount then some n.toNat else none
    | none => none

def readFlag? (raw : String) : Option Bool :=
  let word := String.ofList ((Text.trimChars raw.toList).map Char.toLower)
  if ["1", "true", "yes", "on"].contains word then some true
  else if ["0", "false", "no", "off"].contains word then some false
  else none

def variableNames : List String :=
  ["CASEGEN_MAX_DEPTH", "CASEGEN_PRUNE_AXES", "CASEGEN_PARALLEL"]

/-- The settings under the variables of an environment. A variable that cannot be read changes
nothing. -/
def override (config : Config) (lookup : String → Option String) : Config :=
  { config with
    maxDepth := ((lookup "CASEGEN_MAX_DEPTH").bind readDepth?).getD config.maxDepth
    prune := ((lookup "CASEGEN_PRUNE_AXES").bind readFlag?).getD config.prune
    parallel := ((lookup "CASEGEN_PARALLEL").bind readFlag?).getD config.parallel }

end Config

end Variorum
