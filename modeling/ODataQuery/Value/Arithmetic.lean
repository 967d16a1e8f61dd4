import ODataQuery.Expr.Operator
import ODataQuery.Numeric.Decimal.Arithmetic
import ODataQuery.Value.Basic

/-!
# Arithmetic of values

Operators on numbers of any kinds. What has no result is `null`: operands that are `null` or
no numbers, overflow, and division by zero.

## Main definitions

- `Value.arithmetic` — the operators between two numbers
- `Value.opposite` — the number with the opposite sign

## Design notes

Two numbers are brought to the kind that their kinds promote to. Integers are computed in 64
bits; `divby` on integers gives a decimal. Floating point results have 64 bits.
-/

namespace ODataQuery.Value

/-- An integer that 64 bits hold, or else `null`. -/
def ofInt64 (n : Int) : Value :=
  if FitsBits 64 n then int64 (Int64.ofInt n) else null

/-- A decimal in its shortest form; `null` if there is none. -/
def ofDecimal : Option Decimal → Value
  | some d => decimal d.normalize
  | none => null

/-- An operator on decimals. -/
def decimalArithmetic (op : BinaryOp) (x y : Decimal) : Value :=
  match op with
  | .add => ofDecimal (x.add? y)
  | .sub => ofDecimal (x.sub? y)
  | .mul => ofDecimal (x.mul? y)
  | .div | .divby => ofDecimal (x.div? y)
  | .mod => ofDecimal (x.rem? y)
  | _ => null

/-- An operator on integers. Division truncates, and a remainder takes the sign of the
dividend; there is no remainder where there is no quotient. -/
def integerArithmetic (op : BinaryOp) (x y : Int) : Value :=
  match op with
  | .add => ofInt64 (x + y)
  | .sub => ofInt64 (x - y)
  | .mul => ofInt64 (x * y)
  | .div => if y = 0 then null else ofInt64 (x.tdiv y)
  | .mod => if y = 0 ∨ ¬FitsBits 64 (x.tdiv y) then null else ofInt64 (x.tmod y)
  | .divby =>
    match Decimal.ofInt? x, Decimal.ofInt? y with
    | some x, some y => decimalArithmetic op x y
    | _, _ => null
  | _ => null

/-- An operator on floating point numbers. -/
def floatArithmetic (op : BinaryOp) (x y : Float) : Value :=
  if op.isDivision && y == 0 then null
  else match op with
    | .add => double (x + y)
    | .sub => double (x - y)
    | .mul => double (x * y)
    | .div | .divby => double (x / y)
    | .mod => double (Double.remainder x y)
    | _ => null

/-- Applies an arithmetic operator. -/
def arithmetic (op : BinaryOp) (a b : Value) : Value :=
  match a.kind?, b.kind? with
  | some j, some k =>
    if j.isNumeric && k.isNumeric then
      match j.promote k with
      | .int64 =>
        match a.toInt?, b.toInt? with
        | some x, some y => integerArithmetic op x y
        | _, _ => null
      | .decimal =>
        match a.toDecimal?, b.toDecimal? with
        | some x, some y => decimalArithmetic op x y
        | _, _ => null
      | _ =>
        match a.toDouble?, b.toDouble? with
        | some x, some y => floatArithmetic op x y
        | _, _ => null
    else null
  | _, _ => null

/-- The number with the opposite sign; the opposite of an integer has 64 bits. -/
def opposite : Value → Value
  | single x => single (-x)
  | double x => double (-x)
  | decimal d => decimal d.neg
  | v =>
    match v.toInt? with
    | some n => ofInt64 (-n)
    | none => null

end ODataQuery.Value
