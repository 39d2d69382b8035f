/-! Values of the interchange format in which requests are written. -/

namespace AssistedShell

inductive Json where
  | null
  | bool (value : Bool)
  | number (value : Int)
  | string (text : String)
  | array (items : List Json)
  | object (members : List (String × Json))
  deriving Repr, Inhabited

end AssistedShell
