inductive Json where
  | null
  | bool (value : Bool)
  | num (value : Int)
  | str (value : String)
  | arr (items : List Json)
  | obj (fields : List (String × Json))

/-- An object literal; a member that is `undefined` is not written. -/
def Json.literal (members : List (String × Option Json)) : Json :=
  .obj (members.filterMap (fun member => member.2.map (member.1, ·)))

namespace Json

/-- A member of an object, absent where it is `undefined`. -/
def member (name : String) : Json → Option Json
  | .obj fields => fields.lookup name
  | _ => none

def asStr : Json → Option String
  | .str value => some value
  | _ => none

def asNum : Json → Option Int
  | .num value => some value
  | _ => none

def asBool : Json → Option Bool
  | .bool value => some value
  | _ => none

def asArr : Json → Option (List Json)
  | .arr items => some items
  | _ => none

def asObj : Json → Option (List (String × Json))
  | .obj fields => some fields
  | _ => none

end Json
