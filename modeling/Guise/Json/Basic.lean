import Guise.Json.Number

/-! # Documents

A JSON value as it was read: members in written order, repeated keys kept.  A literal that is well
formed and denotes nothing (a number beyond the largest, a text with half of a surrogate pair) is
read as `malformed`; whoever uses that part of a document refuses it. -/

namespace Guise

/-- A JSON value. -/
inductive Json where
  | null
  | bool (value : Bool)
  | number (value : Number)
  | string (value : String)
  | array (items : List Json)
  | object (members : List (String × Json))
  | malformed
  deriving Inhabited

namespace Json

mutual

/-- How deep arrays and objects are nested; a scalar has depth 0. -/
def depth : Json → Nat
  | array items => itemsDepth items + 1
  | object members => membersDepth members + 1
  | _ => 0

def itemsDepth : List Json → Nat
  | [] => 0
  | j :: r => max (depth j) (itemsDepth r)

def membersDepth : List (String × Json) → Nat
  | [] => 0
  | (_, j) :: r => max (depth j) (membersDepth r)

end

mutual

/-- Whether nothing in the value is malformed. -/
def isSound : Json → Bool
  | malformed => false
  | array items => itemsSound items
  | object members => membersSound members
  | _ => true

def itemsSound : List Json → Bool
  | [] => true
  | j :: r => isSound j && itemsSound r

def membersSound : List (String × Json) → Bool
  | [] => true
  | (_, j) :: r => isSound j && membersSound r

end

/-- The deepest nesting that a reader of whole documents accepts. -/
def deepest : Nat := 127

def isObject : Json → Bool
  | object _ => true
  | _ => false

/-- The value of a key among members; of repeated keys the last counts. -/
def find (key : String) : List (String × Json) → Option Json
  | [] => none
  | (k, j) :: r => (find key r).or (if k = key then some j else none)

/-- The value of a key in an object. -/
def member? (key : String) : Json → Option Json
  | object members => find key members
  | _ => none

def string? : Json → Option String
  | string s => some s
  | _ => none

/-- The texts of an array of texts. -/
def strings? : Json → Option (List String)
  | array items => items.mapM string?
  | _ => none

/-- The only value of a key among members; `none` when the key is repeated. -/
def unique (members : List (String × Json)) (key : String) : Option (Option Json) :=
  match members.filter (·.1 == key) with
  | [] => some none
  | [m] => some (some m.2)
  | _ => none

/-- The values of the named fields of a record, in order.  The record is an object, whose other keys
are ignored and where no named key may be repeated, or an array of the leading fields. -/
def fields? (names : List String) : Json → Option (List (Option Json))
  | object members => names.mapM (unique members)
  | array items =>
    if items.length ≤ names.length then
      some (items.map some ++ List.replicate (names.length - items.length) none)
    else none
  | _ => none

end Json
end Guise
