import TinyLisp.Atom
import TinyLisp.Token

/-!
# Reading forms

Tokens become forms with a stack of the brackets that are open. A closing bracket ends the
innermost one, which must be of its kind, and the sequence becomes an item of what encloses it.
A fault is found at the first token that no continuation could repair.
-/

namespace TinyLisp

/-- A bracket that is open: its kind, its offset, and the items in front of it in what encloses
it, the latest first. -/
structure OpenBracket where
  bracket : Bracket
  offset : Option Int
  before : List Value

/-- The state of reading: the items of the innermost open bracket, the latest first, and the open
brackets, the innermost first. -/
structure Reading where
  items : List Value
  opened : List OpenBracket

namespace Reading

def initial : Reading := ⟨[], []⟩

def push (reading : Reading) (item : Value) : Reading :=
  ⟨item :: reading.items, reading.opened⟩

/-- The contents of a string token, without the character at either end. -/
def stringContents (text : List Char) : String :=
  String.ofList (Text.unescape (text.drop 1).dropLast)

/-- Ends the innermost bracket with a closing token. -/
def close (reading : Reading) (bracket : Bracket) (token : Token) : Except ReadFault Reading :=
  match reading.opened with
  | [] => .error (.unexpectedCloser (String.ofList token.text) token.offset)
  | innermost :: enclosing =>
      if innermost.bracket = bracket then
        .ok ⟨.sequence none bracket reading.items.reverse :: innermost.before, enclosing⟩
      else
        .error (.mismatchedCloser (String.ofList token.text) token.offset
          innermost.bracket innermost.offset)

def accept (reading : Reading) (token : Token) : Except ReadFault Reading :=
  match token.kind with
  | .opening bracket => .ok ⟨[], ⟨bracket, token.offset, reading.items⟩ :: reading.opened⟩
  | .closing bracket => reading.close bracket token
  | .string => .ok (reading.push (.string (stringContents token.text)))
  | .atom => do return reading.push (← readAtom token.offset token.text)
  | .other label => .error (.unknownToken label (String.ofList token.text) token.offset)

/-- The forms that have been read, if no bracket is open. -/
def finish (reading : Reading) : Except ReadFault (List Value) :=
  match reading.opened with
  | [] => .ok reading.items.reverse
  | innermost :: _ => .error (.unclosed innermost.bracket innermost.offset)

end Reading

def readTokens (tokens : List Token) : Except ReadFault (List Value) := do
  (← tokens.foldlM Reading.accept Reading.initial).finish

/-- The forms of a text. A fault in the tokens before a string that never ends comes first. -/
def readForms (text : List Char) : Except ReadFault (List Value) := do
  let found := scan text
  let reading ← found.tokens.foldlM Reading.accept Reading.initial
  match found.unterminated with
  | some offset => throw (.unterminatedString offset)
  | none => reading.finish

/-- The only form of a text. -/
def readOne (text : List Char) : Except ReadFault Value := do
  match ← readForms text with
  | [form] => return form
  | forms => throw (.formCount forms.length)

end TinyLisp
