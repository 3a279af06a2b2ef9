/-! Errors with a stable code, and the convention for codes: non-empty groups of ASCII capitals and
digits joined by single underscores, after the prefix of their family. -/

namespace Brigade

/-- What every error tells about itself. -/
class Coded (ε : Type) where
  code : ε → String
  message : ε → String
  /-- Whether trying again may succeed. -/
  recoverable : ε → Bool

namespace ErrorCode

def isCodeChar (c : Char) : Bool := c.isUpper || c.isDigit || c = '_'

def hasDoubleUnderscore : List Char → Bool
  | '_' :: '_' :: _ => true
  | _ :: rest => hasDoubleUnderscore rest
  | [] => false

def isUpperSnake (cs : List Char) : Bool :=
  !cs.isEmpty && cs.head? != some '_' && cs.getLast? != some '_' && !hasDoubleUnderscore cs
    && cs.all isCodeChar

/-- How a code breaks the convention. -/
inductive Violation
  | empty
  | wrongFamily (code family : String)
  | notUpperSnake (code : String)
  deriving DecidableEq

def Violation.message : Violation → String
  | .empty => "Error code must not be empty"
  | .wrongFamily code family => s!"Error code '{code}' must start with prefix '{family}'"
  | .notUpperSnake code => s!"Error code '{code}' must be UPPER_SNAKE_CASE"

/-- The first rule that a code of a family breaks. -/
def violation? (family code : String) : Option Violation :=
  if code.toList.isEmpty then some .empty
  else if !family.toList.isPrefixOf code.toList then some (.wrongFamily code family)
  else if !isUpperSnake code.toList then some (.notUpperSnake code)
  else none

end ErrorCode

end Brigade
