import LookupEngine.Number.Shortest
import LookupEngine.Number.Integer
import LookupEngine.Text.Entries
/-!
# Values

The dynamic values that lookups read and produce.  Integers are exact and lie in the
range of a signed or an unsigned word, every other number is a floating-point one.
Objects are kept in increasing order of their keys.
-/

namespace LookupEngine

inductive Number where
  | integer (n : Int)
  | float (x : Binary64)
deriving Repr, DecidableEq

inductive Value where
  | null
  | bool (b : Bool)
  | number (n : Number)
  | string (s : String)
  | array (items : List Value)
  | object (fields : List (String × Value))
deriving Repr

namespace Number

def write : Number → List Char
  | integer n => Integer.writeChars n
  | float x => x.write

/-- The signed word that a number is. -/
def signed? : Number → Option Int
  | integer n => Integer.checked n
  | float _ => none

end Number

namespace Value

def int (n : Int) : Value := number (.integer n)

def nat (n : Nat) : Value := int n

/-- A null, an array or an object, which has no text of its own. -/
def isScalar : Value → Bool
  | bool _ => true
  | number _ => true
  | string _ => true
  | _ => false

def ofStrings (items : List String) : Value := array (items.map string)

/-- The object with some fields, the last of several with one key. -/
def ofFields (fields : List (String × Value)) : Value := object (Entries.ofList fields)

def get? (key : String) : Value → Option Value
  | object fields => Entries.find? key fields
  | _ => none

end Value

end LookupEngine
