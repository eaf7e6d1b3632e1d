/-
**Expressions of policies.**

The conditions of policies are expressions over the request. Their trees keep what was written:
every comparison has its own operator, and parentheses are the shape of the tree. Fields of records
are sorted by key.
-/

import PolicyLedger.Policy.Name

namespace PolicyLedger.Policy

/-- The parts of a request. -/
inductive Variable
  | principal
  | action
  | resource
  | context
  deriving DecidableEq, Repr

/-- A value that is written down. -/
inductive Literal
  | bool (value : Bool)
  | int (value : Int64)
  | text (value : String)
  | entity (uid : EntityUid)
  deriving DecidableEq

/-- An element of a pattern: any row of characters, or one character. -/
inductive PatternElement
  | wildcard
  | char (c : Char)
  deriving DecidableEq, Repr

/-- The operators with two operands, those written as methods included. -/
inductive BinaryOp
  | equal
  | notEqual
  | less
  | lessEqual
  | greater
  | greaterEqual
  | isIn
  | and
  | or
  | plus
  | minus
  | times
  | contains
  | containsAll
  | containsAny
  | getTag
  | hasTag
  deriving DecidableEq, Repr

/-- The functions on addresses, decimals, moments and durations. -/
inductive Extension
  | ip
  | decimal
  | datetime
  | duration
  | isIpv4
  | isIpv6
  | isLoopback
  | isMulticast
  | isInRange
  | lessThan
  | lessThanOrEqual
  | greaterThan
  | greaterThanOrEqual
  | offset
  | durationSince
  | toDate
  | toTime
  | toMilliseconds
  | toSeconds
  | toMinutes
  | toHours
  | toDays
  deriving DecidableEq, Repr

/-- An expression. -/
inductive Expr
  | literal (value : Literal)
  | var (part : Variable)
  | not (arg : Expr)
  | negate (arg : Expr)
  | isEmpty (arg : Expr)
  | binary (op : BinaryOp) (left right : Expr)
  | attr (left : Expr) (name : String)
  | has (left : Expr) (first : String) (others : List String)
  | like (left : Expr) (pattern : List PatternElement)
  | is (left : Expr) (type : Name)
  | isWithin (left : Expr) (type : Name) (group : Expr)
  | ite (condition yes no : Expr)
  | set (items : List Expr)
  | record (fields : List (String × Expr))
  | call (function : Extension) (args : List Expr)

namespace Variable

/-- The word for a part of a request. -/
def word : Variable → String
  | principal => "principal"
  | action => "action"
  | resource => "resource"
  | context => "context"

/-- The part of a request with a word. -/
def ofWord? (word : String) : Option Variable :=
  if word = "principal" then some principal
  else if word = "action" then some action
  else if word = "resource" then some resource
  else if word = "context" then some context
  else none

end Variable

namespace BinaryOp

/-- Holds of the operators that are written as methods. -/
def isMethod : BinaryOp → Bool
  | contains | containsAll | containsAny | getTag | hasTag => true
  | _ => false

/-- The written form of an operator. -/
def symbol : BinaryOp → String
  | equal => "=="
  | notEqual => "!="
  | less => "<"
  | lessEqual => "<="
  | greater => ">"
  | greaterEqual => ">="
  | isIn => "in"
  | and => "&&"
  | or => "||"
  | plus => "+"
  | minus => "-"
  | times => "*"
  | contains => "contains"
  | containsAll => "containsAll"
  | containsAny => "containsAny"
  | getTag => "getTag"
  | hasTag => "hasTag"

/-- All operators. -/
def all : List BinaryOp :=
  [equal, notEqual, less, lessEqual, greater, greaterEqual, isIn, and, or, plus, minus, times,
    contains, containsAll, containsAny, getTag, hasTag]

/-- The operator with a written form. -/
def ofSymbol? (symbol : String) : Option BinaryOp := all.find? fun op => op.symbol = symbol

/-- The method with a name. -/
def ofMethod? (name : String) : Option BinaryOp := (ofSymbol? name).filter isMethod

/-- Every operator is read back from its written form. -/
theorem ofSymbol?_symbol (op : BinaryOp) : ofSymbol? op.symbol = some op := by
  cases op <;> decide

/-- Holds of the operators whose rows are written without parentheses. -/
def isChained : BinaryOp → Bool
  | and | or | plus | minus | times => true
  | _ => false

end BinaryOp

namespace Extension

/-- The name of a function. -/
def name : Extension → String
  | ip => "ip"
  | decimal => "decimal"
  | datetime => "datetime"
  | duration => "duration"
  | isIpv4 => "isIpv4"
  | isIpv6 => "isIpv6"
  | isLoopback => "isLoopback"
  | isMulticast => "isMulticast"
  | isInRange => "isInRange"
  | lessThan => "lessThan"
  | lessThanOrEqual => "lessThanOrEqual"
  | greaterThan => "greaterThan"
  | greaterThanOrEqual => "greaterThanOrEqual"
  | offset => "offset"
  | durationSince => "durationSince"
  | toDate => "toDate"
  | toTime => "toTime"
  | toMilliseconds => "toMilliseconds"
  | toSeconds => "toSeconds"
  | toMinutes => "toMinutes"
  | toHours => "toHours"
  | toDays => "toDays"

/-- All functions. -/
def all : List Extension :=
  [ip, decimal, datetime, duration, isIpv4, isIpv6, isLoopback, isMulticast, isInRange, lessThan,
    lessThanOrEqual, greaterThan, greaterThanOrEqual, offset, durationSince, toDate, toTime,
    toMilliseconds, toSeconds, toMinutes, toHours, toDays]

/-- The function with a name. -/
def ofName? (name : String) : Option Extension := all.find? fun function => function.name = name

/-- Holds of the functions that are written as methods; the others make values from texts. -/
def isMethod : Extension → Bool
  | ip | decimal | datetime | duration => false
  | _ => true

/-- Every function is read back from its name. -/
theorem ofName?_name (function : Extension) : ofName? function.name = some function := by
  cases function <;> decide

end Extension

end PolicyLedger.Policy
