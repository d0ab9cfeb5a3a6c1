/-
# Configuration of dispatching
-/
import SchemaRpc.Codec.Decode

namespace SchemaRpc

/-- What can be set about dispatching. -/
structure Config where
  /-- The limits for decoding arguments. -/
  limits : Codec.Limits
  /-- Whether completed dispatches are recorded. -/
  metricsEnabled : Bool
deriving DecidableEq

/-- The usual configuration. -/
def Config.default : Config := ⟨.default, true⟩

end SchemaRpc
