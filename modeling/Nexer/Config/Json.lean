/-!
# The trees that the configuration parser reads

What `jsini::Value` shows of a parsed file: every value and every key with the
line it stands on, the elements of an array in order, the entries of an object
in the order in which they are iterated.  Texts are C strings.
-/

namespace Nexer.Config

/-- The type tags of jsini. -/
inductive JsonType where
  | undefined
  | null
  | bool
  | integer
  | number
  | string
  | array
  | object
  deriving DecidableEq

structure Key where
  name : String
  line : Nat
  deriving DecidableEq

inductive Json where
  | undefined (line : Nat)
  | null (line : Nat)
  | bool (line : Nat) (value : Bool)
  | integer (line : Nat) (value : Int)
  | number (line : Nat) (spelling : String)
  | string (line : Nat) (value : String)
  | array (line : Nat) (items : List Json)
  | object (line : Nat) (entries : List (Key × Json))

namespace Json

def type : Json → JsonType
  | undefined _ => .undefined
  | null _ => .null
  | bool .. => .bool
  | integer .. => .integer
  | number .. => .number
  | string .. => .string
  | array .. => .array
  | object .. => .object

/-- `lineno()`. -/
def lineno : Json → Nat
  | undefined line | null line | bool line _ | integer line _ | number line _
  | string line _ | array line _ | object line _ => line

end Json

/-- The keys of an object, in order. -/
def keys (entries : List (Key × Json)) : List String :=
  entries.map (·.1.name)

mutual

/-- Every object of the tree has each of its keys once. -/
def Json.Unique : Json → Prop
  | .array _ items => UniqueItems items
  | .object _ entries => (keys entries).Nodup ∧ UniqueEntries entries
  | _ => True

def UniqueItems : List Json → Prop
  | [] => True
  | value :: rest => value.Unique ∧ UniqueItems rest

def UniqueEntries : List (Key × Json) → Prop
  | [] => True
  | (_, value) :: rest => value.Unique ∧ UniqueEntries rest

end

end Nexer.Config
