import SeriesQuery.Macro.Arguments
import SeriesQuery.Macro.Comment
import SeriesQuery.Text.Keyword

/-!
# Macro calls

A query may start with one macro call. `readCall` gives the call with its arguments and, for the
macros over a source, the text from the keyword FROM on; a query that starts with none of the four
heads has no call. `Call.print` writes a call in its plain form.
-/

namespace SeriesQuery.Macro

open Text

/-- A macro call with its arguments. -/
inductive Call
  | columns (key value source : Text)
  | rateColumns (key value source : Text)
  | rate (args : List Text) (source : Text)
  | event (name : Text) (aggregation : Option Text)
  deriving DecidableEq, Repr

namespace Call

def kind : Call → Kind
  | columns .. => .columns
  | rateColumns .. => .rateColumns
  | rate .. => .rate
  | event .. => .event

/-- The call written out: arguments after a comma and a space, the source after one space. -/
def print : Call → Text
  | columns key value source =>
    Kind.columns.head ++ join ", ".toList [key, value] ++ ") ".toList ++ source
  | rateColumns key value source =>
    Kind.rateColumns.head ++ join ", ".toList [key, value] ++ ") ".toList ++ source
  | rate args source => Kind.rate.head ++ join ", ".toList args ++ ") ".toList ++ source
  | event name aggregation =>
    Kind.event.head ++ join ", ".toList (name :: aggregation.toList) ++ ")".toList

end Call

/-- The kind of macro that a query starts with, and the text behind its opening parenthesis. -/
def readHead? (query : Text) : Option (Kind × Text) :=
  Kind.all.findSome? fun kind => (after? kind.head query).map fun body => (kind, body)

/-- The text up to the parenthesis that brings the scan to the outermost level, and the text behind
it. -/
def splitCallFrom? : Nesting → Text → Option (Text × Text)
  | _, [] => none
  | n, c :: r =>
    match n.advance c with
    | none => none
    | some m =>
      if m = .top then some ([], r)
      else (splitCallFrom? m r).map fun (inner, rest) => (c :: inner, rest)

/-- The text between an opening parenthesis just read and its closing one, and what follows. -/
def splitCall? (body : Text) : Option (Text × Text) :=
  splitCallFrom? { depth := 1 } body

/-- The text from the keyword FROM on. -/
def readSource (query rest : Text) : Except QueryError Text :=
  match Keyword.fromClause.split? rest with
  | some o => .ok (o.word ++ o.rest)
  | none => .error (.missingFrom query)

/-- The call of a macro with these arguments, in a query that goes on with `rest`. -/
def readCallOf (query : Text) (kind : Kind) (args : List Text) (rest : Text) :
    Except QueryError Call :=
  match kind, args with
  | .columns, [key, value] => do return .columns key value (← readSource query rest)
  | .rateColumns, [key, value] => do return .rateColumns key value (← readSource query rest)
  | .columns, args => .error (.argumentCount .columns 2 args)
  | .rateColumns, args => .error (.argumentCount .rateColumns 2 args)
  | .rate, [] => .error (.noArguments .rate)
  | .rate, args => do return .rate args (← readSource query rest)
  | .event, args =>
    if isOnlyComments rest then
      match args with
      | [] => .error (.noArguments .event)
      | name :: more => .ok (.event name more.head?)
    else .error (.malformed (.textAfterCall .event (trim rest)))

/-- The macro call that a query starts with, if it starts with one. -/
def readCall (query : Text) : Except QueryError (Option Call) :=
  let query := trim query
  match readHead? query with
  | none => .ok none
  | some (kind, body) =>
    match splitCall? body with
    | none => .error (.malformed (.unclosedCall kind query))
    | some (inner, rest) => do
      let args ← readArguments inner
      return some (← readCallOf query kind args rest)

end SeriesQuery.Macro
