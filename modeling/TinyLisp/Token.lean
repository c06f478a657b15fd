import TinyLisp.Text
import TinyLisp.Value

/-!
# Tokens

Program text is a sequence of brackets, quoted strings and atoms with layout around them. Blanks,
commas and comments are layout; a comment runs from a semicolon to the end of its line. The text
is scanned one character at a time, so the scan of a text is known from the state that the scan
of its first part leaves.
-/

namespace TinyLisp

/-- What a token is. Tokens that do not come from a scan may carry some other label. -/
inductive TokenKind where
  | opening (bracket : Bracket)
  | closing (bracket : Bracket)
  | string
  | atom
  | other (label : String)
  deriving DecidableEq

/-- A token with its text and, if it comes from a scan, the offset of its first character. The
text of a string holds its quotes. -/
structure Token where
  kind : TokenKind
  text : List Char
  offset : Option Int
  deriving DecidableEq

namespace Text

/-- Blanks and commas separate tokens. -/
def isSeparator (c : Char) : Bool := isBlank c || c = ','

def opens? (c : Char) : Option Bracket :=
  if c = '(' then some .round else if c = '[' then some .square else none

def closes? (c : Char) : Option Bracket :=
  if c = ')' then some .round else if c = ']' then some .square else none

/-- Atoms are made of the characters that mean nothing else. -/
def isAtomChar (c : Char) : Bool :=
  !isSeparator c && (opens? c).isNone && (closes? c).isNone && c ≠ '"' && c ≠ ';'

end Text

/-- What a scan is in the middle of. Characters that have been seen stand in reverse. -/
inductive ScanMode where
  | between
  | comment
  | atom (begun : Nat) (seen : List Char)
  | string (begun : Nat) (seen : List Char) (escaping : Bool)
  deriving DecidableEq

/-- The state of a scan: the next character's offset and the tokens so far, the latest first. -/
structure Scanner where
  mode : ScanMode
  offset : Nat
  tokens : List Token
  deriving DecidableEq

namespace Scanner

def initial : Scanner := ⟨.between, 0, []⟩

/-- Ends the token that begins at an offset and consists of some characters, in reverse. -/
def finishToken (tokens : List Token) (kind : TokenKind) (begun : Nat) (seen : List Char) :
    List Token :=
  ⟨kind, seen.reverse, some (begun : Int)⟩ :: tokens

/-- Takes a character that follows layout or a finished token. -/
def advanceBetween (offset : Nat) (tokens : List Token) (c : Char) : Scanner :=
  if Text.isSeparator c then ⟨.between, offset + 1, tokens⟩
  else if c = ';' then ⟨.comment, offset + 1, tokens⟩
  else if c = '"' then ⟨.string offset [c] false, offset + 1, tokens⟩
  else
    match Text.opens? c, Text.closes? c with
    | some bracket, _ =>
        ⟨.between, offset + 1, finishToken tokens (.opening bracket) offset [c]⟩
    | none, some bracket =>
        ⟨.between, offset + 1, finishToken tokens (.closing bracket) offset [c]⟩
    | none, none => ⟨.atom offset [c], offset + 1, tokens⟩

def advance (scanner : Scanner) (c : Char) : Scanner :=
  let ⟨mode, offset, tokens⟩ := scanner
  match mode with
  | .between => advanceBetween offset tokens c
  | .comment => ⟨if c = '\n' then .between else .comment, offset + 1, tokens⟩
  | .atom begun seen =>
      if Text.isAtomChar c then ⟨.atom begun (c :: seen), offset + 1, tokens⟩
      else advanceBetween offset (finishToken tokens .atom begun seen) c
  | .string begun seen escaping =>
      if escaping then ⟨.string begun (c :: seen) false, offset + 1, tokens⟩
      else if c = '"' then
        ⟨.between, offset + 1, finishToken tokens .string begun (c :: seen)⟩
      else ⟨.string begun (c :: seen) (c = '\\'), offset + 1, tokens⟩

end Scanner

/-- The tokens of a text, up to its end or to the offset of a string that never ends. -/
structure Scan where
  tokens : List Token
  unterminated : Option Nat
  deriving DecidableEq

/-- What a scan has found when the text ends. -/
def Scanner.finish (scanner : Scanner) : Scan :=
  match scanner.mode with
  | .between | .comment => ⟨scanner.tokens.reverse, none⟩
  | .atom begun seen => ⟨(finishToken scanner.tokens .atom begun seen).reverse, none⟩
  | .string begun _ _ => ⟨scanner.tokens.reverse, some begun⟩

def scan (text : List Char) : Scan := (text.foldl Scanner.advance Scanner.initial).finish

end TinyLisp
