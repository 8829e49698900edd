import Conform.Number
/-!
# JSON values

An object is a list of members. Every object that `Json.ofMembers` builds has ascending keys, by
code point, and no key twice. Comparison and lookup go by key and do not depend on the order.
-/

namespace Conform

/-- A JSON value. -/
inductive Json where
  /-- The value `null`. -/
  | null
  /-- A truth value. -/
  | bool (value : Bool)
  /-- A number. -/
  | number (value : Number)
  /-- A string. -/
  | string (value : String)
  /-- An array, its elements in order. -/
  | array (elements : List Json)
  /-- An object, its members in key order. -/
  | object (members : List (String × Json))
deriving Inhabited

namespace Json

/-- Put a member at its place in key order; a member with the same key gives way. -/
def insertMember (key : String) (value : Json) : List (String × Json) → List (String × Json)
  | [] => [(key, value)]
  | (other, current) :: rest =>
    if key < other then (key, value) :: (other, current) :: rest
    else if key = other then (key, value) :: rest
    else (other, current) :: insertMember key value rest

/-- The object of a list of members; the last of several members with one key counts. -/
def ofMembers (members : List (String × Json)) : Json :=
  .object (members.foldl (fun sorted member => insertMember member.1 member.2 sorted) [])

/-- The object member of a name; absent on every other value. -/
def member? (name : String) : Json → Option Json
  | .object members => members.lookup name
  | _ => none

/-- The array element at an index; absent on every other value. -/
def element? (index : Nat) : Json → Option Json
  | .array elements => elements[index]?
  | _ => none

mutual

/-- The number of values on the longest way from a value to a scalar or an empty container. -/
def depth : Json → Nat
  | .array elements => elementsDepth elements + 1
  | .object members => membersDepth members + 1
  | _ => 1

/-- The greatest depth among elements. -/
def elementsDepth : List Json → Nat
  | [] => 0
  | element :: rest => max (depth element) (elementsDepth rest)

/-- The greatest depth among members. -/
def membersDepth : List (String × Json) → Nat
  | [] => 0
  | (_, value) :: rest => max (depth value) (membersDepth rest)

end

/-- The depth of a value that may be absent. -/
def depth? : Option Json → Nat
  | none => 0
  | some value => depth value

end Json

end Conform
