import TinyLisp.Text
import TinyLisp.Value

/-!
# The text of values

A value has four texts. The readable one reads back as the value; the display text differs from
it in showing strings raw. The inspected text names the kind of every part, for messages; the
shown text is the inspected one except that strings, names and closures appear plainly.
Writing a value out takes room for nested calls, and an integer beyond the digit limit cannot be
written at all: `obstacle` finds what stands in the way first.
-/

namespace TinyLisp

/-- The four ways to write a value. -/
inductive Style where
  | readable
  | display
  | inspected
  | shown
  deriving DecidableEq, Inhabited

/-- The way in which the items of a sequence are written. -/
def Style.ofItems : Style → Style
  | .readable => .readable
  | .display => .display
  | .inspected | .shown => .inspected

/-- What keeps a value from being written: it is nested too deeply, or an integer in it has too
many digits. -/
inductive Obstacle where
  | depth
  | digits
  deriving DecidableEq, Inhabited

namespace Name

/-- A name as messages show it after the word for its kind. -/
def inspect (kind : String) (name : Name) : List Char :=
  let qualifier :=
    match name.qualifier? with
    | none => []
    | some qualifier => ", ".toList ++ Text.inspect qualifier.toList
  kind.toList ++ '(' :: (Text.inspect name.base.toList ++ qualifier ++ [')'])

end Name

namespace Value

def keywordText (name : Name) : List Char := ':' :: name.text

/-- The word that inspected texts use for a kind of sequence. -/
def sequenceWord : Bracket → String
  | .round => "ListSeq"
  | .square => "VectorSeq"

/-- The items' texts with a separator between them. -/
def joined (separator : List Char) : List (List Char) → List Char
  | [] => []
  | [text] => text
  | text :: rest => text ++ separator ++ joined separator rest

def sequenceText (style : Style) (bracket : Bracket) (items : List (List Char)) : List Char :=
  match style with
  | .readable | .display => bracket.opening :: (joined [' '] items ++ [bracket.closing])
  | .inspected | .shown =>
      (sequenceWord bracket).toList ++ '(' :: '[' :: (joined [',', ' '] items ++ [']', ')'])

def foreignText : Foreign → String
  | .bool true => "True"
  | .bool false => "False"
  | .absent => "None"

def stringText (style : Style) (text : String) : List Char :=
  match style with
  | .readable => Text.quote text.toList
  | .display | .shown => text.toList
  | .inspected => Text.inspect text.toList

/-- A name in a style, given the word for its kind and the way it is written in programs. -/
def nameText (style : Style) (kind : String) (name : Name) (written : List Char) : List Char :=
  match style with
  | .inspected => name.inspect kind
  | .readable | .display | .shown => written

def primitiveText (procedure : Primitive) : List Char :=
  "#<primitive ".toList ++ procedure.name.toList ++ ['>']

def closureText (parameters : List (List Char)) : List Char :=
  "#<fn [".toList ++ joined [' '] parameters ++ "]>".toList

mutual

/-- The text of a value in a style. -/
def render (style : Style) : Value → List Char
  | .number value => value.text
  | .string text => stringText style text
  | .symbol name => nameText style "Symbol" name name.text
  | .keyword name => nameText style "Keyword" name (keywordText name)
  | .literal text => text.toList
  | .sequence _ bracket items => sequenceText style bracket (renderAll style.ofItems items)
  | .primitive procedure => primitiveText procedure
  | .closure _ parameters _ _ => closureText (renderAll .shown parameters)
  | .foreign value => (foreignText value).toList

def renderAll (style : Style) : List Value → List (List Char)
  | [] => []
  | value :: rest => render style value :: renderAll style rest

end

/-- The nested calls that writing one more level of a sequence takes. -/
def callsPerLevel : Nat := 2

mutual

/-- The first thing that keeps a value from being written within a number of nested calls. -/
def obstacle (depth : Nat) : Value → Option Obstacle
  | .number value => if value.exceedsDigitLimit then some .digits else none
  | .sequence _ _ items =>
      if depth < callsPerLevel then some .depth
      else obstacleAmong (depth - callsPerLevel) items
  | .closure _ parameters _ _ => obstacleAmong depth parameters
  | _ => none

def obstacleAmong (depth : Nat) : List Value → Option Obstacle
  | [] => none
  | value :: rest =>
      match obstacle depth value with
      | some found => some found
      | none => obstacleAmong depth rest

end

end Value

end TinyLisp
