import GaussMatrix.Library.Collections

namespace GaussMatrix.Json

open Collections List Option Std.ExtTreeMap

inductive Number where
  | posInt (value : UInt64)
  | negInt (value : Int64)
  | float (bits : UInt64)

-- An object lists its fields as they were read: a later one replaces an earlier one of the same key.
inductive Value where
  | null
  | bool (value : Bool)
  | number (value : Number)
  | string (text : String)
  | array (items : List Value)
  | object (fields : List (String × Value))

namespace Value

def asStr : Value → Option String
  | .string text => some text
  | _ => none

def asU64 : Value → Option UInt64
  | .number (.posInt value) => some value
  | _ => none

def asArray : Value → Option (List Value)
  | .array items => some items
  | _ => none

def asObject : Value → Option (BTreeMap String Value)
  | .object fields => some (extend ∅ fields)
  | _ => none

def get (value : Value) (key : String) : Option Value := value.asObject.bind fun fields => fields[key]?

variable (value : Value) (map : BTreeMap String Value) (fields : List (String × Value)) (key : String)

theorem as_str_iff {text : String} : value.asStr = some text ↔ value = .string text := by
  cases value <;> simp [asStr]

theorem as_array_iff {items : List Value} : value.asArray = some items ↔ value = .array items := by
  cases value <;> simp [asArray]

theorem as_object_iff : value.asObject = some map ↔ ∃ fields, value = .object fields ∧ extend ∅ fields = map := by
  cases value <;> simp [asObject]

theorem extend_lookup : (extend map fields)[key]? = (fields.reverse.lookup key).or map[key]? := by
  induction fields generalizing map with
  | nil => rfl
  | cons field rest ih =>
    have step := ih (map.insert field.1 field.2)
    rw [reverse_cons, lookup_append, Option.or_assoc]
    refine step.trans (congrArg _ ?_)
    by_cases same : key = field.1
    · rw [same, getElem?_insert_self]
      simp [List.lookup]
    · rw [insert_elsewhere same, lookup_cons, beq_false_of_ne same]
      rfl

theorem get_object : (object fields).get key = fields.reverse.lookup key := by
  rw [get, asObject, bind_some, extend_lookup, getElem?_empty, or_none]

def ofObject (map : BTreeMap String Value) : Value := .object map.toList

theorem as_object_of_object : (ofObject map).asObject = some map := by
  refine congrArg some (ext_getElem? fun key => ?_)
  rw [extend_map, getElem?_empty, or_none]

def set (map : BTreeMap String Value) (key : String) (value : Value) : Value := ofObject (map.insert key value)

theorem get_set_elsewhere {value : Value} {map : BTreeMap String Value} (object : value.asObject = some map)
    {key other : String} (different : other ≠ key)
    (written : Value) : (set map key written).get other = value.get other := by
  rw [get, set, as_object_of_object, bind_some, insert_elsewhere different, get, object, bind_some]

end Value

end GaussMatrix.Json
