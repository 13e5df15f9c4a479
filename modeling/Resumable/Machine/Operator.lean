import Resumable.Machine.Fault
import Resumable.Value

/-!
# Operators

Integer arithmetic is exact or raises: a result that does not fit 64 bits is an
overflow, and nothing ever wraps.  Division goes toward zero and the remainder has
the sign of the dividend.
-/

namespace Resumable

/-- How a computation or a call ends: with a value or with an exception. -/
inductive Completion where
  | value (v : Value)
  | exception (v : Value)
  deriving DecidableEq, Inhabited

namespace Completion

/-- The exception of a result that does not fit 64 bits. -/
def overflow : Completion := .exception (.str "integer overflow")

def divisionByZero : Completion := .exception (.str "division by zero")

/-- An integer, if it fits 64 bits. -/
def ofInt (n : Int) : Completion :=
  if Int64.minValue.toInt ≤ n ∧ n ≤ Int64.maxValue.toInt then .value (.int (Int64.ofInt n))
  else overflow

def ofBool (b : Bool) : Completion := .value (.bool b)

end Completion

/-- The remainder.  It raises an overflow where the quotient does. -/
def remainder (a b : Int64) : Completion :=
  if a = Int64.minValue ∧ b = -1 then .overflow else .ofInt (a.toInt.tmod b.toInt)

/-- Applies an operator, given the text of a value.  Values of any types can be
compared for equality and joined. -/
def BinOp.apply (text : Value → String) (op : BinOp) (left right : Value) :
    Except MachineFault Completion :=
  match op, left, right with
  | .eq, l, r => .ok (.ofBool (l = r))
  | .ne, l, r => .ok (.ofBool (l ≠ r))
  | .concat, l, r => .ok (.value (.str (text l ++ text r)))
  | .add, .int a, .int b => .ok (.ofInt (a.toInt + b.toInt))
  | .sub, .int a, .int b => .ok (.ofInt (a.toInt - b.toInt))
  | .mul, .int a, .int b => .ok (.ofInt (a.toInt * b.toInt))
  | .div, .int a, .int b =>
    .ok (if b.toInt = 0 then .divisionByZero else .ofInt (a.toInt.tdiv b.toInt))
  | .mod, .int a, .int b =>
    .ok (if b.toInt = 0 then .divisionByZero else remainder a b)
  | .lt, .int a, .int b => .ok (.ofBool (a.toInt < b.toInt))
  | .gt, .int a, .int b => .ok (.ofBool (b.toInt < a.toInt))
  | .le, .int a, .int b => .ok (.ofBool (a.toInt ≤ b.toInt))
  | .ge, .int a, .int b => .ok (.ofBool (b.toInt ≤ a.toInt))
  | .lt, .str a, .str b => .ok (.ofBool (a < b))
  | .gt, .str a, .str b => .ok (.ofBool (b < a))
  | .and, .bool a, .bool b => .ok (.ofBool (a && b))
  | .or, .bool a, .bool b => .ok (.ofBool (a || b))
  | op, l, r => .error (.badBinary op l.typeName r.typeName)

def UnaryOp.apply (op : UnaryOp) (operand : Value) : Except MachineFault Completion :=
  match op, operand with
  | .neg, .int n => .ok (.ofInt (-n.toInt))
  | .not, .bool b => .ok (.ofBool (!b))
  | op, v => .error (.badUnary op v.typeName)

end Resumable
