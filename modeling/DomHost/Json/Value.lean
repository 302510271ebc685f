/-!
# JSON values

A value keeps the members of its objects in order, repeated names included. Two kinds of text are well
formed and yet stand for nothing: a string with half of a surrogate pair, and a number beyond the
range of doubles. They are kept apart, because they are faults only where the value is wanted.

* `Json`, `Json.Number`: values and numbers;
* `Json.depth`, `Json.hasContent`: nesting, and whether every part stands for something.
-/

namespace DomHost

/-- A JSON number: an integer that fits 64 bits, or else a double, if it is in range. -/
inductive Json.Number where
  | natural (n : Nat)
  | negative (n : Nat)
  | real (x : Option Float)

/-- A JSON value. -/
inductive Json where
  | null
  | bool (b : Bool)
  | number (n : Json.Number)
  | string (s : Option String)
  | array (items : List Json)
  | object (members : List (Option String × Json))

instance : Inhabited Json := ⟨.null⟩

namespace Json

mutual

/-- How deep arrays and objects are nested. -/
def depth : Json → Nat
  | array items => depthOfItems items + 1
  | object members => depthOfMembers members + 1
  | _ => 0

/-- The greatest depth of some values. -/
def depthOfItems : List Json → Nat
  | [] => 0
  | v :: rest => max v.depth (depthOfItems rest)

/-- The greatest depth of the values of some members. -/
def depthOfMembers : List (Option String × Json) → Nat
  | [] => 0
  | (_, v) :: rest => max v.depth (depthOfMembers rest)

end

mutual

/-- Does every string and number in the value stand for something? -/
def hasContent : Json → Bool
  | number (.real none) => false
  | string none => false
  | array items => itemsHaveContent items
  | object members => membersHaveContent members
  | _ => true

/-- Does every string and number in some values stand for something? -/
def itemsHaveContent : List Json → Bool
  | [] => true
  | v :: rest => v.hasContent && itemsHaveContent rest

/-- Does every name, string and number in some members stand for something? -/
def membersHaveContent : List (Option String × Json) → Bool
  | [] => true
  | (name, v) :: rest => name.isSome && v.hasContent && membersHaveContent rest

end

end Json

end DomHost
