/-
**Writing policies.**

A policy is written on one line after its annotations. Operands are put in parentheses unless they
are literals, variables, lists, records, accesses or calls; a negative number is put in parentheses
as well, and only a row of one and the same operator is written without.
-/

import PolicyLedger.Policy.Basic
import PolicyLedger.Text.Quoted

namespace PolicyLedger.Policy

/-- The characters of a word. -/
def chars (word : String) : List Char := word.toList

/-- Parts with a separator between them. -/
def separate (separator : List Char) : List (List Char) → List Char
  | [] => []
  | [part] => part
  | part :: other :: rest => part ++ separator ++ separate separator (other :: rest)

/-- The name of an entity. -/
def EntityUid.print (uid : EntityUid) : List Char :=
  chars uid.type.text ++ [':', ':'] ++ Text.quote uid.id

/-- A literal. -/
def Literal.print : Literal → List Char
  | bool true => chars "true"
  | bool false => chars "false"
  | int value => Text.intDigits value.toInt
  | text value => Text.quote value
  | entity uid => uid.print

/-- An element of a pattern. -/
def PatternElement.print : PatternElement → List Char
  | wildcard => ['*']
  | char c => if c = '*' then ['\\', '*'] else Text.escapeChar true c

/-- Holds of the names that are written without quotation marks. -/
def isPlainName (name : String) : Bool := isNamePart name

/-- A name, in quotation marks if need be. -/
def printName (name : String) : List Char :=
  if isPlainName name then chars name else Text.quote name

/-- What follows an expression to name one of its attributes. -/
def printAccess (name : String) : List Char :=
  if isPlainName name then '.' :: chars name else '[' :: Text.quote name ++ [']']

namespace Expr

/-- Holds of the expressions that need no parentheses as operands. -/
def isAtomic : Expr → Bool
  | literal (.int value) => !(value < 0)
  | literal _ | var _ | isEmpty _ | attr .. | set _ | record _ | call .. => true
  | binary op _ _ => op.isMethod
  | _ => false

/-- Holds of a row of an operator. -/
def isRowOf (op : BinaryOp) : Expr → Bool
  | binary other _ _ => op = other && op.isChained
  | _ => false

/-- An operand, in parentheses unless it needs none. -/
def enclose (atomic : Bool) (printed : List Char) : List Char :=
  if atomic then printed else '(' :: printed ++ [')']

mutual

/-- An expression. -/
def print : Expr → List Char
  | literal value => value.print
  | var part => chars part.word
  | not arg => '!' :: enclose arg.isAtomic (print arg)
  | negate arg => '-' :: enclose false (print arg)
  | isEmpty arg => enclose arg.isAtomic (print arg) ++ chars ".isEmpty()"
  | binary op left right =>
    if op.isMethod then
      enclose left.isAtomic (print left) ++ '.' :: chars op.symbol ++ '(' :: print right ++ [')']
    else
      enclose (left.isAtomic || left.isRowOf op) (print left) ++ ' ' :: chars op.symbol ++
        ' ' :: enclose right.isAtomic (print right)
  | attr left name => enclose left.isAtomic (print left) ++ printAccess name
  | has left first others =>
    enclose left.isAtomic (print left) ++ chars " has " ++
      if others.isEmpty then printName first
      else separate ['.'] ((first :: others).map chars)
  | like left pattern =>
    enclose left.isAtomic (print left) ++ chars " like " ++
      '"' :: pattern.flatMap PatternElement.print ++ ['"']
  | is left type => enclose left.isAtomic (print left) ++ chars " is " ++ chars type.text
  | isWithin left type group =>
    enclose left.isAtomic (print left) ++ chars " is " ++ chars type.text ++ chars " in " ++
      enclose group.isAtomic (print group)
  | ite condition yes no =>
    chars "if " ++ print condition ++ chars " then " ++ print yes ++ chars " else " ++ print no
  | set items => '[' :: separate [',', ' '] (printItems items) ++ [']']
  | record fields => '\x7b' :: separate [',', ' '] (printFields fields) ++ ['\x7d']
  | call function args =>
    match args with
    | receiver :: others =>
      if function.isMethod then
        enclose receiver.isAtomic (print receiver) ++ '.' :: chars function.name ++
          '(' :: separate [',', ' '] (printItems others) ++ [')']
      else
        chars function.name ++ '(' :: separate [',', ' '] (print receiver :: printItems others) ++
          [')']
    | [] => chars function.name ++ ['(', ')']

/-- Some expressions. -/
def printItems : List Expr → List (List Char)
  | [] => []
  | item :: rest => print item :: printItems rest

/-- The fields of a record. -/
def printFields : List (String × Expr) → List (List Char)
  | [] => []
  | (key, value) :: rest => (printName key ++ chars ": " ++ print value) :: printFields rest

end

end Expr

/-- A variable with its scope. -/
def EntityScope.print (word : String) : EntityScope → List Char
  | all => chars word
  | equal uid => chars word ++ chars " == " ++ uid.print
  | isIn uid => chars word ++ chars " in " ++ uid.print
  | is type => chars word ++ chars " is " ++ chars type.text
  | isWithin type uid =>
    chars word ++ chars " is " ++ chars type.text ++ chars " in " ++ uid.print

/-- The action with its scope. -/
def ActionScope.print : ActionScope → List Char
  | all => chars "action"
  | equal uid => chars "action == " ++ uid.print
  | isIn uid => chars "action in " ++ uid.print
  | isInAny uids =>
    chars "action in [" ++ separate [',', ' '] (uids.map EntityUid.print) ++ [']']

/-- A condition. -/
def Condition.print (condition : Condition) : List Char :=
  ' ' :: chars condition.kind.word ++ chars " \x7b " ++ condition.body.print ++ chars " \x7d"

/-- The line of an annotation. -/
def printAnnotation (row : String × Option String) : List Char :=
  '@' :: chars row.1 ++
    match row.2 with
    | some text => '(' :: Text.quote text ++ [')', '\n']
    | none => ['\n']

/-- The text of a policy. -/
def print (policy : Policy) : List Char :=
  policy.annotations.rows.flatMap printAnnotation ++ chars policy.effect.word ++
    '(' :: policy.principal.print "principal" ++ chars ", " ++ policy.action.print ++
    chars ", " ++ policy.resource.print "resource" ++ [')'] ++
    policy.conditions.flatMap Condition.print ++ [';']

end PolicyLedger.Policy
