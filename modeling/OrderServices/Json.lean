import OrderServices.Types

/-! The part of `boost::json` that the services use: the kinds of value, lookup
of keys and the conversions `value_to`. Parsing and serializing are parameters. -/
namespace OrderServices

/-- A value with its number kind. An object keeps its members in insertion order. -/
inductive Json (F : Type)
  | null
  | bool (b : Bool)
  | int64 (n : Int64)
  | uint64 (n : UInt64)
  | double (x : F)
  | string (s : String)
  | array (elements : List (Json F))
  | object (members : List (String × Json F))

/-- The error conditions that the used functions of the library throw. -/
inductive JsonError
  | notObject
  | notArray
  | notString
  | notBool
  | notNumber
  | notExact
  | outOfRange
  | syntaxError
  deriving DecidableEq, Repr

/-- The library functions whose code is not part of the repository. A failed parse
and every error condition come with the text that `what` returns for it. -/
structure BoostJson (F : Type) where
  parse : String → Except String (Json F)
  serialize : Json F → String
  what : JsonError → String

namespace Json

variable {F : Type}

/-- `object::if_contains`. -/
def ifContains (members : List (String × Json F)) (key : String) : Option (Json F) :=
  members.lookup key

/-- `object::at`. -/
def atKey (members : List (String × Json F)) (key : String) : Except JsonError (Json F) :=
  match ifContains members key with
  | some value => .ok value
  | none => .error .outOfRange

def asObject : Json F → Except JsonError (List (String × Json F))
  | .object members => .ok members
  | _ => .error .notObject

/-- `value_to<std::string>`. -/
def toString : Json F → Except JsonError String
  | .string s => .ok s
  | _ => .error .notString

/-- `value_to<bool>`. -/
def toBool : Json F → Except JsonError Bool
  | .bool b => .ok b
  | _ => .error .notBool

/-- The integer a number is exactly equal to, whatever its kind. -/
def exactInt [Double F] : Json F → Except JsonError Int
  | .int64 n => .ok n.toInt
  | .uint64 n => .ok n.toNat
  | .double x =>
      match Double.toInt? x with
      | some n => .ok n
      | none => .error .notExact
  | _ => .error .notNumber

/-- `value_to<std::int32_t>`. -/
def toInt32 [Double F] (value : Json F) : Except JsonError Int32 := do
  let n ← value.exactInt
  if -2 ^ 31 ≤ n ∧ n < 2 ^ 31 then .ok (.ofInt n) else .error .notExact

/-- `value_to<std::size_t>`. -/
def toSize [Double F] (value : Json F) : Except JsonError UInt64 := do
  let n ← value.exactInt
  if 0 ≤ n ∧ n < 2 ^ 64 then .ok (.ofNat n.toNat) else .error .notExact

/-- `value_to<double>`. -/
def toDouble [Double F] : Json F → Except JsonError F
  | .int64 n => .ok (Double.ofInt n.toInt)
  | .uint64 n => .ok (Double.ofInt n.toNat)
  | .double x => .ok x
  | _ => .error .notNumber

/-- `value_to<std::vector<T>>` for the conversion of the element type. -/
def toVector {T : Type} (element : Json F → Except JsonError T) :
    Json F → Except JsonError (List T)
  | .array elements => elements.mapM element
  | _ => .error .notArray

mutual
/-- The kinds in which a serialized value comes back from the parser: a non-negative
integer that fits is read as `int64`, whatever kind it was written from. -/
def reread : Json F → Json F
  | .uint64 n => if n.toNat < 2 ^ 63 then .int64 (.ofNat n.toNat) else .uint64 n
  | .array elements => .array (rereadAll elements)
  | .object members => .object (rereadMembers members)
  | value => value

def rereadAll : List (Json F) → List (Json F)
  | [] => []
  | value :: values => reread value :: rereadAll values

def rereadMembers : List (String × Json F) → List (String × Json F)
  | [] => []
  | (key, value) :: members => (key, reread value) :: rereadMembers members
end

@[simp] theorem reread_bool (b : Bool) : (Json.bool b : Json F).reread = .bool b := by
  simp [reread]

@[simp] theorem reread_int64 (n : Int64) : (Json.int64 n : Json F).reread = .int64 n := by
  simp [reread]

@[simp] theorem reread_double (x : F) : (Json.double x).reread = .double x := by
  simp [reread]

@[simp] theorem reread_string (s : String) : (Json.string s : Json F).reread = .string s := by
  simp [reread]

@[simp] theorem reread_object (members : List (String × Json F)) :
    (Json.object members).reread = .object (rereadMembers members) := by
  simp [reread]

attribute [simp] rereadMembers

/-! The small facts by which a decoder is run on the value of an encoder. -/

@[simp] theorem bind_ok {ε α β : Type} (a : α) (f : α → Except ε β) : (Except.ok a >>= f) = f a := rfl

@[simp] theorem bind_error {ε α β : Type} (e : ε) (f : α → Except ε β) :
    ((Except.error e : Except ε α) >>= f) = .error e := rfl

@[simp] theorem ifContains_nil (key : String) : ifContains ([] : List (String × Json F)) key = none := rfl

@[simp] theorem ifContains_self (key : String) (value : Json F) (members : List (String × Json F)) :
    ifContains ((key, value) :: members) key = some value := List.lookup_cons_self

@[simp] theorem ifContains_of_ne {key other : String} (h : key ≠ other) (value : Json F)
    (members : List (String × Json F)) :
    ifContains ((other, value) :: members) key = ifContains members key := by
  unfold ifContains
  rw [List.lookup_cons, beq_false_of_ne h]

@[simp] theorem atKey_self (key : String) (value : Json F) (members : List (String × Json F)) :
    atKey ((key, value) :: members) key = .ok value := by
  rw [atKey, ifContains_self]

@[simp] theorem atKey_of_ne {key other : String} (h : key ≠ other) (value : Json F)
    (members : List (String × Json F)) :
    atKey ((other, value) :: members) key = atKey members key := by
  rw [atKey, ifContains_of_ne h, atKey]

@[simp] theorem asObject_object (members : List (String × Json F)) :
    (Json.object members).asObject = .ok members := rfl

@[simp] theorem toString_string (s : String) : (Json.string s : Json F).toString = .ok s := rfl

@[simp] theorem toBool_bool (b : Bool) : (Json.bool b : Json F).toBool = .ok b := rfl

@[simp] theorem toDouble_double [Double F] (x : F) : (Json.double x).toDouble = .ok x := rfl

section Equality

variable [DecidableEq F]

mutual

/-- Two values are equal, members in the same order included. -/
def same : Json F → Json F → Bool
  | .null, .null => true
  | .bool b, .bool c => b == c
  | .int64 n, .int64 m => n == m
  | .uint64 n, .uint64 m => n == m
  | .double x, .double y => x == y
  | .string s, .string t => s == t
  | .array values, .array others => sameAll values others
  | .object members, .object others => sameMembers members others
  | _, _ => false

def sameAll : List (Json F) → List (Json F) → Bool
  | [], [] => true
  | value :: values, other :: others => value.same other && sameAll values others
  | _, _ => false

def sameMembers : List (String × Json F) → List (String × Json F) → Bool
  | [], [] => true
  | (key, value) :: members, (key', other) :: others =>
      key == key' && value.same other && sameMembers members others
  | _, _ => false

end

mutual

theorem same_iff (value other : Json F) : value.same other = true ↔ value = other := by
  cases value with
  | array values => cases other <;> simp [same, sameAll_iff values]
  | object members => cases other <;> simp [same, sameMembers_iff members]
  | _ => cases other <;> simp [same]

theorem sameAll_iff (values others : List (Json F)) :
    sameAll values others = true ↔ values = others := by
  cases values with
  | nil => cases others <;> simp [sameAll]
  | cons value values =>
      cases others with
      | nil => simp [sameAll]
      | cons other others => simp [sameAll, same_iff value, sameAll_iff values]

theorem sameMembers_iff (members others : List (String × Json F)) :
    sameMembers members others = true ↔ members = others := by
  cases members with
  | nil => cases others <;> simp [sameMembers]
  | cons m members =>
      obtain ⟨key, value⟩ := m
      cases others with
      | nil => simp [sameMembers]
      | cons o others => simp [sameMembers, Prod.ext_iff, same_iff value, sameMembers_iff members]

end

instance : DecidableEq (Json F) := fun value other => decidable_of_iff _ (same_iff value other)

end Equality

end Json

/-- The library reads back the text it wrote for `value`, up to the kind of integers. -/
def BoostJson.Inverts {F : Type} (J : BoostJson F) (value : Json F) : Prop :=
  J.parse (J.serialize value) = .ok value.reread

end OrderServices
