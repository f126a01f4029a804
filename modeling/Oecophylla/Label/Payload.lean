import Oecophylla.Json
import Oecophylla.Lib.StableSort

namespace Oecophylla.Label

/-!
# Canonical payloads

Two events with one id are the same event when their canonical payloads are one text.  Each
language writes its own text: `Writer` is what they choose for themselves (the order of the
fields and the texts of numbers), `Writer.write` what they share.
-/

/-- How a language writes JSON. -/
structure Writer where
  /-- The order of the fields of an object; their values are already written. -/
  order : List (String × String) → List (String × String)
  /-- The text of an integer. -/
  int : Int → String
  /-- The text of a float. -/
  float : Decimal → String

namespace Writer

mutual
/-- The text of a document, without blanks. -/
def write (w : Writer) : Json → String
  | .null => "null"
  | .bool b => if b then "true" else "false"
  | .int z => w.int z
  | .float d => w.float d
  | .str s => quote s
  | .arr items => "[" ++ String.intercalate "," (writeItems w items) ++ "]"
  | .obj fields =>
    "\x7b" ++ String.intercalate "," ((w.order (writeFields w fields)).map fun f =>
      quote f.1 ++ ":" ++ f.2) ++ "\x7d"

/-- The texts of the items of an array. -/
def writeItems (w : Writer) : List Json → List String
  | [] => []
  | v :: vs => write w v :: writeItems w vs

/-- The fields of an object with the texts of their values. -/
def writeFields (w : Writer) : List (String × Json) → List (String × String)
  | [] => []
  | (k, v) :: fs => (k, write w v) :: writeFields w fs
end

end Writer

/-- Fields by name, in the order of the code points. -/
def byName : List (String × String) → List (String × String) :=
  Lib.stableSort (Lib.compareBy compare Prod.fst)

end Oecophylla.Label
