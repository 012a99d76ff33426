import ReverseProxy.Decimal.Layout
import ReverseProxy.Kdl.Quoted
import ReverseProxy.Kdl.Shape

/-!
# Canonical text

The text of a shape in which nothing is left to choose: a node a line, every name and key quoted,
one space before each entry, and a block from the end of its node's line to a brace of its own.
-/

namespace ReverseProxy.Kdl

open Decimal

def printFloat (value : Binary64) : List Char :=
  match value with
  | .finite .. => (Layout.standard.write value).toList
  | _ => '#' :: (Layout.standard.write value).toList

def Scalar.print : Scalar → List Char
  | .string text => quoteChars text.toList
  | .integer value => (Decimal.text value).toList
  | .float value => printFloat value
  | .boolean true => "#true".toList
  | .boolean false => "#false".toList
  | .null => "#null".toList

def Datum.print (datum : Datum) : List Char :=
  match datum.key with
  | none => ' ' :: datum.value.print
  | some key => ' ' :: (quoteChars key.toList ++ '=' :: datum.value.print)

mutual

def Shape.print : Shape → List Char
  | .mk name data children =>
      quoteChars name.toList ++ data.flatMap Datum.print ++ printChildren children ++ ['\n']

def printChildren : Option (List Shape) → List Char
  | none => []
  | some shapes => [' ', '\x7b', '\n'] ++ printShapes shapes ++ ['\x7d']

def printShapes : List Shape → List Char
  | [] => []
  | shape :: shapes => shape.print ++ printShapes shapes

end

mutual

def Shape.depth : Shape → Nat
  | .mk _ _ children => childDepth children

def childDepth : Option (List Shape) → Nat
  | none => 0
  | some shapes => listDepth shapes + 1

def listDepth : List Shape → Nat
  | [] => 0
  | shape :: shapes => max shape.depth (listDepth shapes)

end

/-- Whether the text of a scalar is exact and within the limit on digits. -/
def Scalar.isPrintable : Scalar → Bool
  | .integer value => (Nat.repr value.natAbs).length ≤ maxDigits
  | .float _ => false
  | _ => true

mutual

def Shape.isPrintable : Shape → Bool
  | .mk _ data children =>
    data.all (fun datum => datum.value.isPrintable) && childPrintable children

def childPrintable : Option (List Shape) → Bool
  | none => true
  | some shapes => allPrintable shapes

def allPrintable : List Shape → Bool
  | [] => true
  | shape :: shapes => shape.isPrintable && allPrintable shapes

end

end ReverseProxy.Kdl
