/-
# Configuration by environment variables

Each setting has a variable that overrides its usual value.  A size is a decimal number of 64
bits, possibly after a plus sign and between blanks; metrics are off only if their variable says
`false`.
-/
import SchemaRpc.Config.Basic
import SchemaRpc.Text.Blank
import SchemaRpc.Text.Quotation

namespace SchemaRpc

namespace Config

/-- Why a text is no size. -/
inductive SizeFault where
  | empty
  | digit
  | overflow
deriving DecidableEq

/-- The wording of a fault. -/
def SizeFault.message : SizeFault → String
  | .empty => "cannot parse integer from empty string"
  | .digit => "invalid digit found in string"
  | .overflow => "number too large to fit in target type"

/-- Read the digits of a size after those that make up `n`. -/
def readDigits (n : Nat) : List Char → Except SizeFault Nat
  | [] => .ok n
  | c :: more =>
    if '0' ≤ c ∧ c ≤ '9' then
      let next := 10 * n + (c.toNat - 48)
      if IntKind.u64.Holds next then readDigits next more else .error .overflow
    else .error .digit

/-- The size that a text writes. -/
def readSize : List Char → Except SizeFault Nat
  | [] => .error .empty
  | ['+'] => .error .digit
  | '+' :: digits => readDigits 0 digits
  | digits => readDigits 0 digits

/-- A variable that does not hold a size. -/
structure EnvironmentError where
  variableName : String
  value : String
  fault : SizeFault
deriving DecidableEq

/-- The wording of an error. -/
def EnvironmentError.message (e : EnvironmentError) : String :=
  e.variableName ++ "=" ++ Text.quoted e.value ++ ": " ++ e.fault.message

/-- The size in a variable, or its usual value if the variable is not set. -/
def sizeOf (environment : String → Option String) (name : String) (usual : Nat) :
    Except EnvironmentError Nat :=
  match environment name with
  | none => .ok usual
  | some value => (readSize (Text.trim value.toList)).mapError (⟨name, value, ·⟩)

/-- Whether a text says `false`, in letters of either case and between blanks. -/
def saysFalse (text : String) : Bool :=
  (Text.trim text.toList).map Char.toLower = "false".toList

/-- The configuration of an environment. -/
def ofEnvironment (environment : String → Option String) : Except EnvironmentError Config := do
  let payload ← sizeOf environment "IOP_MAX_PAYLOAD_BYTES" default.limits.maxPayload
  let depth ← sizeOf environment "IOP_MAX_DECODE_DEPTH" default.limits.maxDepth
  return ⟨⟨depth, payload⟩, !(environment "IOP_METRICS_ENABLED").any saysFalse⟩

end Config

end SchemaRpc
