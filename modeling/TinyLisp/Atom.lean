import TinyLisp.Fault

/-!
# Atoms

What an atom's text denotes. A numeral is a number, three words are literals, and every other
atom is a symbol or a keyword, with at most one slash after a namespace and no colon but the one
in front of a keyword. Anything else has no reading.
-/

namespace TinyLisp

namespace Name

/-- Neither the slash nor the colon is part of a name. -/
def isNameChar (c : Char) : Bool := c ≠ '/' && c ≠ ':'

def isKeywordPart (text : List Char) : Bool := !text.isEmpty && text.all isNameChar

/-- Whether a text can be the base or the namespace of a symbol: it must not look like a number. -/
def isSymbolPart (text : List Char) : Bool :=
  isKeywordPart text && !(text.head?.any Text.isDigit)

def splitSlash (text : List Char) : List Char × Option (List Char) :=
  match text.dropWhile (· ≠ '/') with
  | [] => (text, none)
  | _ :: rest => (text.takeWhile (· ≠ '/'), some rest)

/-- The name with a namespace before the slash and a base after it, each of them accepted. -/
def qualified? (isNamespace isBase : List Char → Bool) (text : List Char) : Option Name :=
  match splitSlash text with
  | (base, none) => if isBase base then some ⟨String.ofList base, ""⟩ else none
  | (qualifier, some base) =>
      if isNamespace qualifier && isBase base then
        some ⟨String.ofList base, String.ofList qualifier⟩
      else none

/-- The name that a symbol's text spells; the slash alone is a base too. -/
def ofSymbolText? (text : List Char) : Option Name :=
  if text = ['/'] then some (plain "/")
  else qualified? isSymbolPart (fun base => isSymbolPart base || base = ['/']) text

def ofKeywordText? : List Char → Option Name
  | ':' :: text => qualified? isKeywordPart isKeywordPart text
  | _ => none

end Name

def literalWords : List String := ["true", "false", "nil"]

/-- The value of an atom. The offset is the one that a fault reports. -/
def readAtom (offset : Option Int) (text : List Char) : Except ReadFault Value :=
  match Numeral.parse? text with
  | some numeral =>
      match numeral.value with
      | .ok value => .ok (.number value)
      | .error count => .error (.tooManyDigits count)
  | none =>
      if String.ofList text ∈ literalWords then .ok (.literal (String.ofList text))
      else
        match Name.ofSymbolText? text, Name.ofKeywordText? text with
        | some name, _ => .ok (.symbol name)
        | none, some name => .ok (.keyword name)
        | none, none => .error (.unreadableAtom (String.ofList text) offset)

end TinyLisp
