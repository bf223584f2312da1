import Variorum.Library.Arguments
import Variorum.Text.Blank

/-!
# Text functions

Case, blanks, padding and joining. Every argument is taken as it is displayed, so that numbers are
texts here.
-/

namespace Variorum.Library

def textModule : String := "str"

def textArg (name description : String) : ArgInfo :=
  { name, type := "Text", description }

def onText (name description : String) (returns : String) (examples : List String)
    (f : String → Value) : BuiltIn where
  info := {
    name, moduleName := textModule, description
    usage := s!"{name}(text)"
    args := [textArg "text" "Input text"]
    returns, examples }
  apply
    | [v] => .ok (f v.display)
    | args => .error (.wrongArity name 1 args.length)

def upper : BuiltIn :=
  onText "upper" "Convert text to uppercase" "Text" ["upper(\"int\") → \"INT\""]
    fun s => .text (Text.upper s)

def lower : BuiltIn :=
  onText "lower" "Convert text to lowercase" "Text" ["lower(\"Int\") → \"int\""]
    fun s => .text (Text.lower s)

def capitalize : BuiltIn :=
  onText "capitalize" "Uppercase the first character of text" "Text"
    ["capitalize(\"string\") → \"String\""] fun s => .text (Text.capitalize s)

def trim : BuiltIn :=
  onText "trim" "Remove leading and trailing whitespace" "Text" ["trim(\"  a \") → \"a\""]
    fun s => .text (Text.trim s)

def len : BuiltIn :=
  onText "len" "Number of characters in text" "Integer" ["len(\"héllo\") → 5"]
    fun s => .integer (Int64.ofNat s.length)

def applyReplace : List Value → Except Failure Value
  | [text, old, new] =>
    if old.display.isEmpty then .error (.invalidArgument "replace(): 'from' must not be empty")
    else .ok (.text (text.display.replace old.display new.display))
  | args => .error (.wrongArity "replace" 3 args.length)

def replace : BuiltIn where
  info := {
    name := "replace", moduleName := textModule
    description := "Replace every occurrence of a substring"
    usage := "replace(text, from, to)"
    args := [textArg "text" "Input text", textArg "from" "Substring to replace",
      textArg "to" "Replacement"]
    returns := "Text"
    examples := ["replace(\"a-b-c\", \"-\", \"_\") → \"a_b_c\""] }
  apply := applyReplace

def applyRepeat : List Value → Except Failure Value
  | [text, count] => do
    let count ← requireCount "repeat" "count" count
    requireLength "repeat" text.display.utf8ByteSize count
    return .text (Text.repeated text.display count)
  | args => .error (.wrongArity "repeat" 2 args.length)

def repeatText : BuiltIn where
  info := {
    name := "repeat", moduleName := textModule
    description := "Repeat text a number of times"
    usage := "repeat(text, count)"
    args := [textArg "text" "Text to repeat",
      { name := "count", type := "Integer", description := "Number of repetitions" }]
    returns := "Text"
    examples := ["repeat(\"ab\", 3) → \"ababab\""] }
  apply := applyRepeat

def concat : BuiltIn where
  info := {
    name := "concat", moduleName := textModule
    description := "Concatenate the display forms of all arguments"
    usage := "concat(a, b, ...)"
    args := [{ name := "values", type := "Any...", description := "Values to concatenate" }]
    returns := "Text"
    examples := ["concat(\"x\", 1, 2.5) → \"x12.5\""] }
  apply args := .ok (.text (String.join (args.map Value.display)))

/-- Joins all arguments after the first, which stands between them. -/
def applyJoin : List Value → Except Failure Value
  | separator :: values => .ok (.text (separator.display.intercalate (values.map Value.display)))
  | [] => .error (.wrongArity "join" 1 0)

def join : BuiltIn where
  info := {
    name := "join", moduleName := textModule
    description := "Join the remaining arguments with a separator"
    usage := "join(separator, a, b, ...)"
    args := [textArg "separator" "Separator",
      { name := "values", type := "Any...", description := "Values to join" }]
    returns := "Text"
    examples := ["join(\", \", 1, 2, 3) → \"1, 2, 3\""] }
  apply := applyJoin

/-- The character that a text is padded with; a space if none is given. -/
def fillChar (function : String) : Option Value → Except Failure Char
  | none => .ok ' '
  | some v =>
    match v.display.toList with
    | [c] => .ok c
    | _ =>
      .error (.invalidArgument
        s!"{function}(): fill must be a single character, got {Text.quote v.display}")

/-- The characters that bring a text to a width. -/
def padding (function : String) (text width : Value) (fill : Option Value) :
    Except Failure String := do
  let width ← requireCount function "width" width
  let c ← fillChar function fill
  let missing := width - text.display.length
  requireLength function c.utf8Size missing
  return Text.repeated (String.singleton c) missing

/-- Pads a text, on the side where `place` puts the padding. -/
def applyPad (function : String) (place : (padding text : String) → String) :
    List Value → Except Failure Value
  | [text, width] => do
    return .text (place (← padding function text width none) text.display)
  | [text, width, fill] => do
    return .text (place (← padding function text width (some fill)) text.display)
  | args => .error (.wrongArity function (if args.length < 2 then 2 else 3) args.length)

def pad (name side : String) (examples : List String) (place : (padding text : String) → String) :
    BuiltIn where
  info := {
    name, moduleName := textModule
    description := s!"Pad text on the {side} to a minimum width"
    usage := s!"{name}(text, width, fill?)"
    args := [textArg "text" "Text to pad",
      { name := "width", type := "Integer", description := "Minimum width in characters" },
      { name := "fill", type := "Text", description := "Single fill character", isOptional := true
        default := some "\" \"" }]
    returns := "Text", examples }
  apply := applyPad name place

def padLeft : BuiltIn :=
  pad "pad_left" "left" ["pad_left(7, 3, \"0\") → \"007\""] fun padding text => padding ++ text

def padRight : BuiltIn :=
  pad "pad_right" "right" ["pad_right(\"ab\", 4, \".\") → \"ab..\""] fun padding text =>
    text ++ padding

def textFunctions : List BuiltIn :=
  [upper, lower, capitalize, trim, replace, repeatText, len, concat, join, padLeft, padRight]

end Variorum.Library
