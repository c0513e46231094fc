import Gapura.Core.Config

/-! # Identifying a caller by an API key

The digest is the sha2 crate's SHA-256, a parameter: the gateway compares
digests and never looks inside one. -/
namespace Gapura.Core.Credentials
open Lib.Text

/-- The header an upstream is told the caller's name in. -/
def consumerHeader : String := "x-consumer-username"

/-- The header an upstream is told the consumer's groups in. -/
def groupsHeader : String := "x-consumer-groups"

/-- The header that tells an upstream the caller is the anonymous consumer. -/
def anonymousHeader : String := "x-anonymous-consumer"

def gatewayHeaders : List String := [consumerHeader, groupsHeader, anonymousHeader]

inductive Refusal where
  | missing
  | unknown
  deriving DecidableEq, Repr

/-- A presented key, trimmed; a blank one is none. -/
def presentedKey (presented : Option String) : Option String :=
  (presented.map trim).filter fun k => !k.isEmpty

def keyDigest (sha256 : String → List UInt8) (key : String) : String := hex (sha256 key)

/-- The consumer a presented key belongs to, when a policy scoped to
`workspace` may accept it. A key of another workspace is as unknown as one
never issued. -/
def identify (sha256 : String → List UInt8) (config : Config) (presented : Option String)
    (workspace : Option String) : Except Refusal String :=
  match presentedKey presented with
  | none => .error .missing
  | some key =>
    let digest := keyDigest sha256 key
    if workspace.any fun w => config.credentialWorkspaces[digest]? != some w then
      .error .unknown
    else match config.credentials[digest]? with
      | some consumer => .ok consumer
      | none => .error .unknown

/-- Only a key that is not there is missing. -/
theorem identify_missing_iff (sha256 : String → List UInt8) (config : Config)
    (presented workspace : Option String) :
    identify sha256 config presented workspace = .error .missing ↔
      presentedKey presented = none := by
  unfold identify
  cases presentedKey presented with
  | none => simp
  | some key =>
    simp only [reduceCtorEq, iff_false]
    split
    · simp
    · split <;> simp

/-- `workspace/username`, the bare username without workspaces. -/
def consumerId (workspace username : String) : String :=
  if workspace.isEmpty then username else workspace ++ "/" ++ username

end Gapura.Core.Credentials
