import TinyLisp.Value.Text

/-!
# Faults

What can go wrong, as causes. Each cause has a kind and a message; where a message shows a value,
the cause holds the text that the value had when the fault arose.
-/

namespace TinyLisp

/-- What can be wrong with a text that is read. Offsets count characters and are absent when the
tokens carry none. -/
inductive ReadFault where
  | unterminatedString (offset : Nat)
  | unexpectedCloser (text : String) (offset : Option Int)
  | mismatchedCloser (text : String) (offset : Option Int)
      (opened : Bracket) (openedAt : Option Int)
  | unknownToken (label text : String) (offset : Option Int)
  | unreadableAtom (text : String) (offset : Option Int)
  | tooManyDigits (count : Nat)
  | unclosed (opened : Bracket) (openedAt : Option Int)
  | formCount (found : Nat)
  deriving DecidableEq

/-- Which part of a special form does not have the shape it should have. -/
inductive ShapeFault where
  | quoteOperands
  | assignmentOperands
  | assignmentTarget (inspected : String)
  | definitionOperands
  | definitionName (inspected : String)
  | functionName
  | functionParameters (name : String)
  | conditionOperands
  | noParameters
  | parametersNotVector (inspected : String)
  | parameterNotSymbol (inspected : String)
  | noBody
  | emptySequence
  deriving DecidableEq

/-- What can be wrong with the clauses of a `cond`. -/
inductive ClauseFault where
  | oddCount
  | elseNotLast
  deriving DecidableEq

/-- What can be wrong with the arguments of a builtin procedure. -/
inductive ArgumentFault where
  | count (procedure : Builtin) (expected given : Nat)
  | notNumber (procedure : Builtin) (text : String)
  | notSequence (procedure : Builtin) (text : String)
  | tooFewToCompare
  | nothingToSubtract
  deriving DecidableEq

/-- What can go wrong in a run. -/
inductive Fault where
  | reading (cause : ReadFault)
  | unbound (name : String)
  | unboundTarget (name : String)
  | undefinable (inspected : String)
  | arity (expected given : Int) (procedure : String)
  | shape (cause : ShapeFault)
  | clauses (cause : ClauseFault)
  | argument (cause : ArgumentFault)
  | primitiveFailed (procedure : String) (text : String)
  | unknownExpression (inspected : String)
  | notProcedure (inspected : String)
  | raised (kind : ErrorKind) (text : String)
  | depthExceeded
  | tooManyDigits
  | integerOutOfRange
  | indexOutOfRange
  | indexTooLarge
  | zeroStep
  | frameLimitOutOfRange
  deriving DecidableEq

/-- The mention of an offset in a message, if there is one. -/
def offsetText (lead : String) : Option Int → String
  | none => ""
  | some offset => lead ++ toString offset

/-- A text as messages show it. -/
def inspectedText (text : String) : String := String.ofList (Text.inspect text.toList)

namespace ReadFault

def kind : ReadFault → ErrorKind
  | tooManyDigits _ => .value
  | _ => .parse

def message : ReadFault → String
  | unterminatedString offset => "Unterminated string literal at " ++ toString offset
  | unexpectedCloser text offset =>
      "Unexpected " ++ inspectedText text ++ offsetText " at " offset ++ " with nothing open"
  | mismatchedCloser text offset opened openedAt =>
      "Mismatched " ++ inspectedText text ++ offsetText " at " offset ++ " closing " ++
        inspectedText opened.opening.toString ++ offsetText " at " openedAt
  | unknownToken label text offset =>
      "Unknown token: " ++ label ++ " " ++ text ++ offsetText " at " offset
  | unreadableAtom text offset =>
      "Cannot read token " ++ inspectedText text ++ offsetText " at " offset
  | tooManyDigits count =>
      "Exceeds the limit (" ++ toString digitLimit ++
        " digits) for integer string conversion: value has " ++ toString count ++
        " digits; use sys.set_int_max_str_digits() to increase the limit"
  | unclosed opened openedAt =>
      "Unterminated " ++ inspectedText opened.opening.toString ++
        offsetText " opened at " openedAt ++ ": reached end of input"
  | formCount found => "Expected one form, found " ++ toString found

end ReadFault

def ShapeFault.message : ShapeFault → String
  | quoteOperands => "quote expects exactly 1 argument"
  | assignmentOperands => "set! requires exactly 2 arguments: (set! var value)"
  | assignmentTarget inspected => "set! first argument must be a symbol, got " ++ inspected
  | definitionOperands => "def requires exactly 2 arguments: (def name value)"
  | definitionName inspected => "def name must be a symbol, got " ++ inspected
  | functionName => "defn requires a name"
  | functionParameters name => "defn " ++ name ++ " requires a parameter vector"
  | conditionOperands =>
      "if requires a condition, a then-expression and an optional else-expression"
  | noParameters => "fn requires a parameter vector"
  | parametersNotVector inspected => "fn parameters must be a vector, got " ++ inspected
  | parameterNotSymbol inspected => "fn parameter must be a symbol, got " ++ inspected
  | noBody => "fn requires at least one body form"
  | emptySequence => "do requires at least one form"

def ClauseFault.message : ClauseFault → String
  | oddCount => "cond requires an even number of forms"
  | elseNotLast => "cond: else clause not last"

def ArgumentFault.message : ArgumentFault → String
  | count procedure expected given =>
      procedure.name ++ " requires exactly " ++ toString expected ++ " argument(s), got " ++
        toString given
  | notNumber procedure text =>
      "All arguments to " ++ procedure.name ++ " must be numbers, got " ++ text
  | notSequence procedure text =>
      procedure.name ++ " expects a list, vector or nil, got " ++ text
  | tooFewToCompare => "= requires at least 2 arguments"
  | nothingToSubtract => "- requires at least 1 argument"

namespace Fault

def kind : Fault → ErrorKind
  | reading cause => cause.kind
  | unbound _ | unboundTarget _ => .unboundVariable
  | undefinable _ | shape _ => .malformedForm
  | arity .. => .arity
  | clauses _ => .malformedCond
  | argument _ | primitiveFailed .. => .native
  | unknownExpression _ => .unknownExpression
  | notProcedure _ => .unknownProcedureType
  | raised kind _ => kind
  | depthExceeded => .recursion
  | tooManyDigits | zeroStep => .value
  | integerOutOfRange | frameLimitOutOfRange => .overflow
  | indexOutOfRange | indexTooLarge => .index

/-- Whether fewer arguments were given than expected, in words. -/
def arityWord (expected given : Int) : String :=
  if given < expected then "too few" else "too many"

def message : Fault → String
  | reading cause => cause.message
  | unbound name => "Unbound variable " ++ name
  | unboundTarget name => "Cannot set unbound variable " ++ name
  | undefinable inspected => "Cannot define " ++ inspected ++ ": not a symbol"
  | arity expected given procedure =>
      "Given " ++ arityWord expected given ++ " arguments" ++
        (if procedure.isEmpty then "" else " to " ++ procedure) ++
        ": expected " ++ toString expected ++ ", got " ++ toString given
  | shape cause => cause.message
  | clauses cause => cause.message
  | argument cause => cause.message
  | primitiveFailed procedure text => procedure ++ ": " ++ text
  | unknownExpression inspected => "Unknown expression " ++ inspected
  | notProcedure inspected => "Cannot apply non-procedure " ++ inspected
  | raised .key text => inspectedText text
  | raised _ text => text
  | depthExceeded => "maximum recursion depth exceeded"
  | tooManyDigits =>
      "Exceeds the limit (" ++ toString digitLimit ++
        " digits) for integer string conversion; use sys.set_int_max_str_digits() to " ++
        "increase the limit"
  | integerOutOfRange => "int too large to convert to float"
  | indexOutOfRange => "tuple index out of range"
  | indexTooLarge => "cannot fit 'int' into an index-sized integer"
  | zeroStep => "slice step cannot be zero"
  | frameLimitOutOfRange => "Python int too large to convert to C int"

def isLanguage (fault : Fault) : Bool := fault.kind.isLanguage

/-- The fault of a value that cannot be written. -/
def ofObstacle : Obstacle → Fault
  | .depth => depthExceeded
  | .digits => tooManyDigits

end Fault

end TinyLisp
