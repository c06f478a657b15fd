/-!
# Kinds of errors

Every error has a kind. The kinds of the language form a tree under one root; the others are
failures of the machine that the language runs on.
-/

namespace TinyLisp

inductive ErrorKind where
  | language
  | parse
  | evaluation
  | unboundVariable
  | arity
  | malformedForm
  | malformedCond
  | native
  | internal
  | unknownExpression
  | unknownProcedureType
  | recursion
  | value
  | overflow
  | index
  | key
  | zeroDivision
  deriving DecidableEq, Inhabited

namespace ErrorKind

/-- The kinds of the language's own errors. -/
def ofLanguage : List ErrorKind :=
  [language, parse, evaluation, unboundVariable, arity, malformedForm, malformedCond, native,
    internal, unknownExpression, unknownProcedureType]

/-- The kinds of the machine's failures. -/
def ofMachine : List ErrorKind := [recursion, value, overflow, index, key, zeroDivision]

/-- The name that reports give a kind. -/
def name : ErrorKind → String
  | language => "ClojetteError"
  | parse => "ParseError"
  | evaluation => "EvaluationError"
  | unboundVariable => "UnboundVariable"
  | arity => "ArityError"
  | malformedForm => "MalformedForm"
  | malformedCond => "MalformedCond"
  | native => "NativeError"
  | internal => "InternalError"
  | unknownExpression => "UnknownExpression"
  | unknownProcedureType => "UnknownProcedureType"
  | recursion => "RecursionError"
  | value => "ValueError"
  | overflow => "OverflowError"
  | index => "IndexError"
  | key => "KeyError"
  | zeroDivision => "ZeroDivisionError"

def ofName? (text : String) : Option ErrorKind :=
  (ofLanguage ++ ofMachine).find? (·.name = text)

def isLanguage (kind : ErrorKind) : Bool := kind ∈ ofLanguage

/-- A kind and the more general kinds above it, up to the root of the language's errors. -/
def lineage : ErrorKind → List ErrorKind
  | language => [language]
  | parse => [parse, language]
  | evaluation => [evaluation, language]
  | unboundVariable => [unboundVariable, evaluation, language]
  | arity => [arity, evaluation, language]
  | malformedForm => [malformedForm, evaluation, language]
  | malformedCond => [malformedCond, malformedForm, evaluation, language]
  | native => [native, evaluation, language]
  | internal => [internal, language]
  | unknownExpression => [unknownExpression, internal, language]
  | unknownProcedureType => [unknownProcedureType, internal, language]
  | machine => [machine]

end ErrorKind

end TinyLisp
