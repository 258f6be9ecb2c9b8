/-!
# JSON values

The values of `serde_json`, as far as events and reports are built from them and looked up in them.
-/

namespace OpenSaab.Json

inductive Number where
  | unsigned (n : UInt64)
  | negative (n : Int)
  | float (bits : UInt64)
  deriving DecidableEq, Repr

inductive Value where
  | null
  | bool (b : Bool)
  | number (n : Number)
  | string (s : String)
  | array (items : List Value)
  | object (fields : List (String × Value))
  deriving Repr

namespace Value

/-- `value[key]`: what is not there is null. -/
def get (v : Value) (key : String) : Value :=
  match v with
  | .object fields => (fields.lookup key).getD .null
  | _ => .null

def asStr : Value → Option String
  | .string s => some s
  | _ => none

def asArray : Value → Option (List Value)
  | .array items => some items
  | _ => none

def asBool : Value → Option Bool
  | .bool b => some b
  | _ => none

def asU64 : Value → Option UInt64
  | .number (.unsigned n) => some n
  | _ => none

/-- `value[key] = new` in an object. -/
def set (v : Value) (key : String) (new : Value) : Value :=
  match v with
  | .object fields => .object ((key, new) :: fields.filter fun f => f.1 ≠ key)
  | .null => .object [(key, new)]
  | v => v

/-- `value == true`. -/
def isTrue (v : Value) : Bool := v.asBool == some true

/-- `value == text`. -/
def isStr (v : Value) (text : String) : Bool := v.asStr == some text

/-- `value == n`. -/
def isU32 (v : Value) (n : UInt32) : Bool := v.asU64 == some n.toUInt64

/-- `value == false`. -/
def isFalse (v : Value) : Bool := v.asBool == some false

/-- `as_i64`. -/
def asI64 : Value → Option Int
  | .number (.unsigned n) => if n.toNat < 0x8000000000000000 then some n.toNat else none
  | .number (.negative n) => some n
  | _ => none

mutual

/-- `value == value`, for objects whose fields are in the order of their keys. -/
def same : Value → Value → Bool
  | .null, .null => true
  | .bool a, .bool b => a == b
  | .number a, .number b => a == b
  | .string a, .string b => a == b
  | .array as, .array bs => sameItems as bs
  | .object as, .object bs => sameFields as bs
  | _, _ => false

def sameItems : List Value → List Value → Bool
  | [], [] => true
  | a :: as, b :: bs => same a b && sameItems as bs
  | _, _ => false

def sameFields : List (String × Value) → List (String × Value) → Bool
  | [], [] => true
  | (k, a) :: as, (l, b) :: bs => k == l && same a b && sameFields as bs
  | _, _ => false

end

/-- A count, length or clock. -/
def nat (n : Nat) : Value := .number (.unsigned (UInt64.ofNat n))

def u64 (n : UInt64) : Value := .number (.unsigned n)

def isObject : Value → Bool
  | .object _ => true
  | _ => false

theorem get_set_ne (v : Value) {key key' : String} (new : Value) (h : key' ≠ key) :
    (v.set key new).get key' = v.get key' := by
  have hne : (key' == key) = false := beq_false_of_ne h
  cases v with
  | object fields =>
    have hfields : (fields.filter fun f => f.1 ≠ key).lookup key' = fields.lookup key' := by
      induction fields with
      | nil => rfl
      | cons f fields ih =>
        by_cases hf : f.1 = key
        · have hf' : (key' == f.1) = false := by rw [hf, hne]
          rw [List.filter_cons_of_neg (by simpa using hf), List.lookup_cons, hf', ih]
        · rw [List.filter_cons_of_pos (by simpa using hf), List.lookup_cons, List.lookup_cons, ih]
    change (((key, new) :: fields.filter fun f => f.1 ≠ key).lookup key').getD null = _
    rw [List.lookup_cons, hne]
    exact congrArg (Option.getD · null) hfields
  | null =>
    change (([(key, new)] : List (String × Value)).lookup key').getD null = null
    rw [List.lookup_cons, hne]
    rfl
  | bool | number | string | array => rfl

theorem isObject_set {v : Value} (h : v.isObject = true) (key : String) (new : Value) :
    (v.set key new).isObject = true := by
  cases v with
  | object => rfl
  | null | bool | number | string | array => cases h

end Value

end OpenSaab.Json
