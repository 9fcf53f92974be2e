import NodeGraph.Scalar

namespace NodeGraph

/-! Payload types that node types come in. -/

inductive NumberType where
  | float
  | int
  | int64
  deriving DecidableEq, Repr

inductive ScalarType where
  | number (type : NumberType)
  | bool
  deriving DecidableEq, Repr

@[reducible] def NumberType.Payload : NumberType → Type
  | .float => Binary32
  | .int => Int32
  | .int64 => Int64

@[reducible] def ScalarType.Payload : ScalarType → Type
  | .number type => type.Payload
  | .bool => Bool

instance : (type : NumberType) → Number type.Payload
  | .float => inferInstanceAs (Number Binary32)
  | .int => inferInstanceAs (Number Int32)
  | .int64 => inferInstanceAs (Number Int64)

instance : (type : ScalarType) → Scalar type.Payload
  | .number type => inferInstanceAs (Scalar type.Payload)
  | .bool => inferInstanceAs (Scalar Bool)

end NodeGraph
