import NodeGraph.Binary32
import NodeGraph.Identifier

namespace NodeGraph

/-! Dynamically typed values: the defaults of plugs and what flows along wires.
Floating-point payloads are bit patterns, so equality of values is equality of
all their bits. -/

inductive Value where
  | void
  | bool (flag : Bool)
  | int32 (number : Int32)
  | int64 (number : Int64)
  | float32 (number : Binary32)
  | float64 (number : Binary64)
  | vec2 (x y : Binary32)
  | vec3 (x y z : Binary32)
  | vec4 (x y z w : Binary32)
  | string (text : String)
  | array (items : List Value)
  | object (className : String) (members : List (String × Value))
  deriving Inhabited

/-! ## Equality -/

mutual
/-- Whether two values agree in kind and in every bit. -/
def Value.agree : Value → Value → Bool
  | .void, .void => true
  | .bool left, .bool right => left == right
  | .int32 left, .int32 right => left == right
  | .int64 left, .int64 right => left == right
  | .float32 left, .float32 right => left == right
  | .float64 left, .float64 right => left == right
  | .vec2 x y, .vec2 x' y' => x == x' && y == y'
  | .vec3 x y z, .vec3 x' y' z' => x == x' && y == y' && z == z'
  | .vec4 x y z w, .vec4 x' y' z' w' => x == x' && y == y' && z == z' && w == w'
  | .string left, .string right => left == right
  | .array left, .array right => Value.agreeItems left right
  | .object leftClass left, .object rightClass right =>
      leftClass == rightClass && Value.agreeMembers left right
  | _, _ => false

def Value.agreeItems : List Value → List Value → Bool
  | [], [] => true
  | left :: lefts, right :: rights => left.agree right && Value.agreeItems lefts rights
  | _, _ => false

def Value.agreeMembers : List (String × Value) → List (String × Value) → Bool
  | [], [] => true
  | (leftName, left) :: lefts, (rightName, right) :: rights =>
      leftName == rightName && left.agree right && Value.agreeMembers lefts rights
  | _, _ => false
end

mutual
theorem Value.eq_of_agree : ∀ (left right : Value), left.agree right = true → left = right
  | .array left, .array right, agrees => by
      simp only [Value.agree] at agrees
      rw [Value.eq_of_agreeItems left right agrees]
  | .object leftClass left, .object rightClass right, agrees => by
      simp only [Value.agree, Bool.and_eq_true, beq_iff_eq] at agrees
      rw [agrees.1, Value.eq_of_agreeMembers left right agrees.2]
  | .void, right, agrees => by cases right <;> simp_all [Value.agree]
  | .bool _, right, agrees => by cases right <;> simp_all [Value.agree]
  | .int32 _, right, agrees => by cases right <;> simp_all [Value.agree]
  | .int64 _, right, agrees => by cases right <;> simp_all [Value.agree]
  | .float32 _, right, agrees => by cases right <;> simp_all [Value.agree]
  | .float64 _, right, agrees => by cases right <;> simp_all [Value.agree]
  | .vec2 .., right, agrees => by cases right <;> simp_all [Value.agree]
  | .vec3 .., right, agrees => by cases right <;> simp_all [Value.agree]
  | .vec4 .., right, agrees => by cases right <;> simp_all [Value.agree]
  | .string _, right, agrees => by cases right <;> simp_all [Value.agree]

theorem Value.eq_of_agreeItems : ∀ (left right : List Value),
    Value.agreeItems left right = true → left = right
  | [], [], _ => rfl
  | left :: lefts, right :: rights, agrees => by
      simp only [Value.agreeItems, Bool.and_eq_true] at agrees
      rw [Value.eq_of_agree left right agrees.1, Value.eq_of_agreeItems lefts rights agrees.2]

theorem Value.eq_of_agreeMembers : ∀ (left right : List (String × Value)),
    Value.agreeMembers left right = true → left = right
  | [], [], _ => rfl
  | (_, left) :: lefts, (_, right) :: rights, agrees => by
      simp only [Value.agreeMembers, Bool.and_eq_true, beq_iff_eq] at agrees
      rw [agrees.1.1, Value.eq_of_agree left right agrees.1.2,
        Value.eq_of_agreeMembers lefts rights agrees.2]
end

mutual
theorem Value.agree_self : ∀ value : Value, value.agree value = true
  | .array items => by simp [Value.agree, Value.agreeItems_self items]
  | .object _ members => by simp [Value.agree, Value.agreeMembers_self members]
  | .void | .bool _ | .int32 _ | .int64 _ | .float32 _ | .float64 _ | .vec2 .. | .vec3 ..
  | .vec4 .. | .string _ => by simp [Value.agree]

theorem Value.agreeItems_self : ∀ items : List Value, Value.agreeItems items items = true
  | [] => rfl
  | item :: items => by
      simp [Value.agreeItems, Value.agree_self item, Value.agreeItems_self items]

theorem Value.agreeMembers_self : ∀ members : List (String × Value),
    Value.agreeMembers members members = true
  | [] => rfl
  | (_, value) :: members => by
      simp [Value.agreeMembers, Value.agree_self value, Value.agreeMembers_self members]
end

theorem Value.agree_iff (left right : Value) : left.agree right = true ↔ left = right :=
  ⟨left.eq_of_agree right, fun equal => equal ▸ left.agree_self⟩

instance : DecidableEq Value := fun left right =>
  decidable_of_iff _ (left.agree_iff right)

/-- A NaN equals itself; the two zeros differ. -/
example : Value.float32 .nan = .float32 .nan ∧ Value.float32 ⟨0x80000000⟩ ≠ .float32 .zero := by
  decide

/-! ## Kinds -/

/-- The kind of a value, in the order of the kinds' tags. -/
inductive ValueKind where
  | void
  | bool
  | int32
  | int64
  | float32
  | float64
  | vec2
  | vec3
  | vec4
  | string
  | array
  | object
  deriving DecidableEq, Repr

def ValueKind.name : ValueKind → String
  | .void => "void"
  | .bool => "bool"
  | .int32 => "int32"
  | .int64 => "int64"
  | .float32 => "float32"
  | .float64 => "float64"
  | .vec2 => "vec2"
  | .vec3 => "vec3"
  | .vec4 => "vec4"
  | .string => "string"
  | .array => "array"
  | .object => "object"

namespace Value

def kind : Value → ValueKind
  | .void => .void
  | .bool _ => .bool
  | .int32 _ => .int32
  | .int64 _ => .int64
  | .float32 _ => .float32
  | .float64 _ => .float64
  | .vec2 .. => .vec2
  | .vec3 .. => .vec3
  | .vec4 .. => .vec4
  | .string _ => .string
  | .array _ => .array
  | .object .. => .object

/-! ## Depth -/

mutual
/-- How deeply a value is nested: an array or object is one deeper than its
deepest element, everything else has depth one. -/
def depth : Value → Nat
  | .array items => depthOfItems items + 1
  | .object _ members => depthOfMembers members + 1
  | _ => 1

def depthOfItems : List Value → Nat
  | [] => 0
  | item :: items => max item.depth (depthOfItems items)

def depthOfMembers : List (String × Value) → Nat
  | [] => 0
  | (_, value) :: members => max value.depth (depthOfMembers members)
end

example : (Value.array []).depth = 1 ∧ (Value.array [.array [], .void]).depth = 2 := by decide

/-! ## Readings

A value can be read as a number, a flag, a text or a list; what does not fit
reads as `none`. -/

def isVoid : Value → Bool
  | .void => true
  | _ => false

def asBinary64? : Value → Option Binary64
  | .bool flag => some (.ofBool flag)
  | .int32 number => some (.ofInt32 number)
  | .int64 number => some (.ofInt64 number)
  | .float32 number => some number.toBinary64
  | .float64 number => some number
  | _ => none

/-- The value as a whole number; floating-point numbers lose their fraction and
stop at the bounds. -/
def asInt64? : Value → Option Int64
  | .bool flag => some (if flag then 1 else 0)
  | .int32 number => some number.toInt64
  | .int64 number => some number
  | .float32 number => some number.toBinary64.toInt64
  | .float64 number => some number.toInt64
  | _ => none

/-- The value as a flag. Floating-point numbers are no flags. -/
def asBool? : Value → Option Bool
  | .bool flag => some flag
  | .int32 number => some (number != 0)
  | .int64 number => some (number != 0)
  | _ => none

def asString? : Value → Option String
  | .string text => some text
  | _ => none

def asArray? : Value → Option (List Value)
  | .array items => some items
  | _ => none

def member? (value : Value) (name : String) : Option Value :=
  match value with
  | .object _ members => (members.find? fun entry => entry.1 == name).map Prod.snd
  | _ => none

end Value

end NodeGraph
