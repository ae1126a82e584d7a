import Mathlib.Data.Rat.Defs
import NetMon.Lib.CStr

/-!
# cJSON documents

The tree behind a `cJSON *` and the accessors the program uses. A pointer is an
`Option CJson`: the accessors take NULL and answer NULL. A `double` is an exact
rational.
-/

namespace NetMon.Lib

/-- A cJSON item. -/
inductive CJson where
  | null
  | bool (b : Bool)
  | number (v : ℚ)
  | string (s : CStr)
  | array (items : List CJson)
  | object (members : List (CStr × CJson))
  deriving Inhabited

namespace CJson

def isTrue : CJson → Bool
  | bool b => b
  | _ => false

def isNull : CJson → Bool
  | null => true
  | _ => false

/-- `item->valuedouble`, zero in everything that is not a number. -/
def valuedouble : CJson → ℚ
  | number v => v
  | _ => 0

/-- `item->valuestring` -/
def valuestring : CJson → Option CStr
  | string s => some s
  | _ => none

/-- What `cJSON_ArrayForEach` visits, each item with its key. -/
def children : Option CJson → List (Option CStr × CJson)
  | some (array items) => items.map fun x => (none, x)
  | some (object members) => members.map fun m => (some m.1, m.2)
  | _ => []

/-- `cJSON_GetArraySize` -/
def getArraySize (a : Option CJson) : Nat := (children a).length

def tolower (b : UInt8) : UInt8 := if 65 ≤ b && b ≤ 90 then b + 32 else b

/-- `case_insensitive_strcmp(a, b) == 0` -/
def sameKey (a b : CStr) : Bool := a.bytes.map tolower == b.bytes.map tolower

/-- `cJSON_GetObjectItem`: the first member under that key, whatever its case. -/
def getObjectItem (item : Option CJson) (name : CStr) : Option CJson :=
  match item with
  | some (object members) => (members.find? fun m => sameKey name m.1).map Prod.snd
  | _ => none

end CJson

end NetMon.Lib
