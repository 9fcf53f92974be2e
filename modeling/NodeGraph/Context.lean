import NodeGraph.Config
import NodeGraph.Text.Decimal

namespace NodeGraph

/-! What nodes are told when they are initialized. -/

/-- What there is to be seen of a skeleton. -/
structure Skeleton where
  boneCount : Nat
  /-- The position of the bone of that name. -/
  boneIndex? : String → Option Nat

/-- The domain a graph runs in: the sample rate of sound graphs, and for
animation graphs the skeleton. -/
structure Context where
  sampleRate : Binary64
  skeleton : Option Skeleton := none

namespace Context

/-- The context a configuration calls for when there is no other. -/
def ofConfig (config : Config) : Context where
  sampleRate := config.sampleRate

instance : Inhabited Context := ⟨ofConfig Config.default⟩

def inspect (context : Context) : String :=
  let skeleton := match context.skeleton with
    | some skeleton => "Some(" ++ toString skeleton.boneCount ++ ")"
    | none => "None"
  "InitContext \x7b sample_rate: " ++ Decimal.inspect context.sampleRate ++
    ", skeleton: " ++ skeleton ++ " \x7d"

example : Context.inspect default =
    "InitContext \x7b sample_rate: 48000.0, skeleton: None \x7d" := by decide +kernel

end Context

end NodeGraph
