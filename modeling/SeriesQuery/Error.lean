import SeriesQuery.Macro.Kind

/-!
# Errors

Why a query cannot be compiled. `QueryError` gives the cause with the text it was found in, and
`QueryError.message` its wording. Causes that lie in the macro call are recoverable: the compiler
then takes the query as it is written. A `Failure` is such an error or the end of the run in date
arithmetic that has no answer at all.
-/

namespace SeriesQuery

open Text Macro

/-- What is wrong with the shape of a macro call. -/
inductive MalformedCall
  | emptyArgument (input : Text)
  /-- A closing parenthesis with nothing open, at a byte position. -/
  | unexpectedClose (position : Nat) (input : Text)
  | openLiteral (input : Text)
  | openParenthesis (input : Text)
  | unclosedCall (kind : Kind) (query : Text)
  | textAfterCall (kind : Kind) (rest : Text)
  deriving DecidableEq, Repr

namespace MalformedCall

def message : MalformedCall → Text
  | emptyArgument input => "empty argument in: ".toList ++ input
  | unexpectedClose position input =>
    "unexpected ')' at position ".toList ++ decimal position ++ " in: ".toList ++ input
  | openLiteral input => "unterminated string literal in: ".toList ++ input
  | openParenthesis input => "unbalanced parentheses in: ".toList ++ input
  | unclosedCall kind query =>
    "unclosed ".toList ++ kind.name ++ " call in: ".toList ++ query
  | textAfterCall kind rest =>
    "unexpected input after ".toList ++ kind.name ++ " call: ".toList ++ rest

end MalformedCall

/-- Why a query cannot be compiled. -/
inductive QueryError
  | argumentCount (kind : Kind) (expected : Nat) (args : List Text)
  | noArguments (kind : Kind)
  | missingAlias (argument : Text)
  | missingFrom (query : Text)
  | malformed (cause : MalformedCall)
  | invalidDuration (text : Text)
  | invalidDate (text : Text)
  deriving DecidableEq, Repr

namespace QueryError

private def parsedArguments (args : List Text) : Text :=
  " func. Parsed arguments are: ".toList ++ join ", ".toList args

def message : QueryError → Text
  | argumentCount kind expected args =>
    "Amount of arguments must equal ".toList ++ decimal expected ++ " for ".toList ++ kind.name
      ++ parsedArguments args
  | noArguments kind =>
    "Amount of arguments must be > 0 for ".toList ++ kind.name ++ parsedArguments []
  | missingAlias argument =>
    "Argument \"".toList ++ argument ++ "\" cant be used without alias".toList
  | missingFrom query => "Could not find FROM-statement at: ".toList ++ query
  | malformed cause => "Parse error: ".toList ++ cause.message
  | invalidDuration text => "Received duration is invalid: ".toList ++ text
  | invalidDate text => "Invalid date expression: ".toList ++ text

/-- Whether the error lies in the macro call, so that the query can be taken as it is written. -/
def isRecoverable : QueryError → Bool
  | invalidDuration _ | invalidDate _ => false
  | _ => true

end QueryError

/-- Why a request has no answer. -/
inductive Failure
  | error (cause : QueryError)
  /-- Date arithmetic left the range in which it is defined, which ends the run. -/
  | abort
  deriving DecidableEq, Repr

end SeriesQuery
