import TinyLisp.Number
import TinyLisp.Text

/-!
# Settings

What the environment can set: the two prompts, the threshold for records and the limit of nested
calls. A value is taken without the blanks around it, and a blank one counts as not set.
-/

namespace TinyLisp

structure Settings where
  threshold : Nat
  recursionLimit : Option Nat
  prompt : String
  outputPrompt : String
  deriving DecidableEq

namespace Settings

def thresholdVariable : String := "CLOJETTE_LOG_LEVEL"

def recursionLimitVariable : String := "CLOJETTE_RECURSION_LIMIT"

def promptVariable : String := "CLOJETTE_PROMPT"

/-- The variable that sets the text in front of a value. -/
def outputPromptVariable : String := "CLOJETTE_OUTPUT_PROMPT"

/-- A value without the blanks around it, or the default if nothing is left. -/
def orDefault (value : Option String) (default : String) : String :=
  let stripped := Text.strip ((value.getD "").toList)
  if stripped.isEmpty then default else String.ofList stripped

/-- A letter as a capital, as far as the names of thresholds go: besides the ASCII letters, the
dotless i and the long s have capitals among those. -/
def capital (c : Char) : Char :=
  if c = 'ı' then 'I' else if c = 'ſ' then 'S' else c.toUpper

def thresholdNames : List (String × Nat) :=
  [("CRITICAL", 50), ("FATAL", 50), ("ERROR", 40), ("WARNING", 30), ("WARN", 30), ("INFO", 20),
    ("DEBUG", 10), ("NOTSET", 0)]

/-- The threshold for warnings, which also stands for every unknown name. -/
def warningThreshold : Nat := 30

/-- The threshold of a name, whatever the case of its letters. -/
def readThreshold (name : String) : Nat :=
  (thresholdNames.lookup (String.ofList (name.toList.map capital))).getD warningThreshold

/-- Decimal digits with at most one underscore between any two of them. -/
def groupedDigits? : List Char → Option (List Nat)
  | [] => none
  | [c] => (Text.digitValue? c).map ([·])
  | c :: '_' :: rest => do return (← Text.digitValue? c) :: (← groupedDigits? rest)
  | c :: rest => do return (← Text.digitValue? c) :: (← groupedDigits? rest)

/-- The positive number that a text spells, if it spells one within the digit limit. -/
def readLimit? (text : String) : Option Nat := do
  let (negative, unsigned) := Numeral.takeSign text.toList
  let digits ← groupedDigits? unsigned
  let value := Text.ofDigits digits
  if negative ∨ value = 0 ∨ digits.length > digitLimit then none else some value

def ofVariables (value? : String → Option String) : Settings where
  threshold := readThreshold (orDefault (value? thresholdVariable) "WARNING")
  recursionLimit := readLimit? (orDefault (value? recursionLimitVariable) "")
  prompt := orDefault (value? promptVariable) ";;; Input Eval:"
  outputPrompt := orDefault (value? outputPromptVariable) ";;; Output Eval:"

/-- The limit of nested calls unless it is set. -/
def defaultRecursionLimit : Nat := 1000

/-- The nested calls that the program itself takes. -/
def ownDepth : Nat := 7

/-- The largest limit of nested calls that can be set. -/
def greatestRecursionLimit : Nat := 2147483647

/-- The budget of nested activations that a limit leaves. -/
def depthWithin (limit : Nat) : Nat := limit - ownDepth

def depth (settings : Settings) : Nat :=
  depthWithin (settings.recursionLimit.getD defaultRecursionLimit)

end Settings

end TinyLisp
