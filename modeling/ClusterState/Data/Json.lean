import Mathlib

/-! # JSON documents

A document as `json.loads` returns it. A dictionary is the list of its entries.
-/

namespace ClusterState

inductive Json where
  | null
  | bool (b : Bool)
  | int (n : Int)
  | float (x : Float)
  | str (text : String)
  | arr (items : List Json)
  | obj (fields : List (String × Json))

namespace Json

/-- `document.get(key)`, of a dictionary. -/
def get (document : Json) (key : String) : Option Json :=
  match document with
  | obj fields => fields.lookup key
  | _ => none

def isDict : Json → Bool
  | obj _ => true
  | _ => false

def str? : Json → Option String
  | str text => some text
  | _ => none

def list? : Json → Option (List Json)
  | arr items => some items
  | _ => none

def dict? : Json → Option Json
  | obj fields => some (obj fields)
  | _ => none

/-- `document.get(key) == text` -/
def holds (document : Json) (key text : String) : Bool := (document.get key).bind str? == some text

/-- `bool(document)` -/
def truthy : Json → Bool
  | null => false
  | bool b => b
  | int n => n != 0
  | float x => x != 0
  | str text => text != ""
  | arr items => !items.isEmpty
  | obj fields => !fields.isEmpty

/-- `bool(document.get(key))` -/
def has (document : Json) (key : String) : Bool := (document.get key).any truthy

end Json

end ClusterState
