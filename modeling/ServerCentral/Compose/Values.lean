import ServerCentral.Framework.Doubles
import ServerCentral.Framework.Table

/-!
# Values of a compose file

What the reader of the file hands over: scalars, lists and maps. The editor looks at one entry
of a list at a time (`Entry`), whose fields are found by their names.
-/

open Framework

namespace ServerCentral.Compose

inductive Value where
  | null
  | bool (b : Bool)
  | number (n : Number)
  | text (s : String)
  | list (items : List Value)
  | map (fields : List (String × Value))
  deriving Repr

/-- An entry of a list. A map has a field of each name at most; numbers that are not whole are
left out. -/
inductive Entry where
  | null
  | bool (b : Bool)
  | integer (n : ℤ)
  | text (s : String)
  | list (items : List Value)
  | map (fields : Table String Value)

end ServerCentral.Compose
