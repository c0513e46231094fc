import Gapura.Core.Input

/-! # Status written back to the API server -/
namespace Gapura.Core.Status
open Input

inductive ConditionStatus where
  | true
  | false
  deriving DecidableEq, Repr

inductive ConditionType where
  | accepted
  | programmed
  | resolvedRefs
  | conflicted
  deriving DecidableEq, Repr

inductive Reason where
  | accepted
  | programmed
  | resolvedRefs
  | noConflicts
  | invalid
  | invalidParameters
  | listenersNotValid
  | portUnavailable
  | unsupportedProtocol
  | invalidCertificateRef
  | invalidRouteKinds
  | refNotPermitted
  | hostnameConflict
  | protocolConflict
  | notAllowedByListeners
  | noMatchingListenerHostname
  | noMatchingParent
  | unsupportedValue
  | backendNotFound
  | invalidKind
  | unsupportedAddress
  | addressNotAssigned
  deriving DecidableEq, Repr

structure Condition where
  type : ConditionType
  status : ConditionStatus
  reason : Reason
  message : String
  observedGeneration : Option Int
  deriving DecidableEq, Repr

structure ListenerStatus where
  name : String
  supportedKinds : List RouteGroupKind
  attachedRoutes : Nat
  conditions : List Condition
  deriving DecidableEq, Repr

structure RouteParentStatus where
  parentRef : ParentReference
  controllerName : String
  conditions : List Condition
  deriving DecidableEq, Repr

inductive StatusPatch where
  | gatewayClass (name : String) (uid : Option String) (conditions : List Condition)
      (supportedFeatures : List String)
  | gateway (ref : ObjectRef) (uid : Option String) (addresses : List String)
      (conditions : List Condition) (listeners : List ListenerStatus)
  | httpRoute (ref : ObjectRef) (uid : Option String) (parents : List RouteParentStatus)
  deriving DecidableEq, Repr

/-- Claimed in a GatewayClass's status, in ascending order. -/
def supportedFeatures : List String :=
  ["Gateway", "HTTPRoute", "HTTPRoute303RedirectStatusCode", "HTTPRoute307RedirectStatusCode",
    "HTTPRoute308RedirectStatusCode", "HTTPRouteRequestMirror", "PathMatchRegularExpression",
    "ReferenceGrant"]

/-- Why a condition does not hold. -/
structure Rejection where
  reason : Reason
  message : String
  deriving DecidableEq, Repr

end Gapura.Core.Status
