import Gapura.Proxy.Plugin

/-! # Decisions after a rule matched

Which backend and which of its endpoints a request goes to, what its path
becomes, and where a redirect points. A slice of a path counts bytes. -/
namespace Gapura.Proxy.Select
open Gapura.Core Core.ClientIp Proxy.Plugin

/-- Answered locally instead of proxied. -/
inductive Local where
  | noBackend
  | noEndpoints
  deriving DecidableEq, Repr

def Local.key : Local → ErrorKey
  | .noBackend => .noBackend
  | .noEndpoints => .noEndpoints

/-- The walk to the backend whose share holds `r`. -/
def backendAt : List WeightedBackend → Nat → Except Local String
  | [], _ => .error .noBackend
  | b :: rest, r =>
    if r < b.weight then match b.cluster with
      | some key => .ok key
      | none => .error .noBackend
    else backendAt rest (r - b.weight)

def pickBackend (backends : List WeightedBackend) (roll : Nat → Nat) : Except Local String :=
  let total := (backends.map WeightedBackend.weight).sum
  if total = 0 then .error .noBackend else backendAt backends (min (roll total) (total - 1))

/-! ## Endpoints -/

abbrev SocketAddr := IpAddr × Nat

section
variable (parseIp : String → Option IpAddr)

/-- The address of a configured endpoint; `none` for one that does not parse. -/
def endpointAddr (e : Endpoint) : Option SocketAddr :=
  (parseIp e.address).map fun ip => (ip, e.port)

def untriedAt (cluster : Cluster) (tried : List SocketAddr) (i : Nat) : Option SocketAddr :=
  (cluster.endpoints[i]?.bind (endpointAddr parseIp)).filter (!tried.contains ·)

/-- The endpoints this request can still try, with their indices. -/
def leftToTry (cluster : Cluster) (tried : List SocketAddr) : List (Nat × SocketAddr) :=
  (List.range cluster.endpoints.length).filterMap fun i =>
    (untriedAt parseIp cluster tried i).map fun addr => (i, addr)

/-- With more than this share of the cluster ejected, ejection is ignored. -/
def healthyPanic (n : Nat) (ejected : Nat → Bool) (maxEjectedPercent : Nat) : Bool :=
  decide (((List.range n).filter ejected).length * 100 > n * maxEjectedPercent)

/-- The endpoints an attempt chooses from once the one at the cursor is skipped. -/
def eligible (cluster : Cluster) (tried : List SocketAddr) (ejected : Nat → Bool)
    (maxEjectedPercent : Nat) : List (Nat × SocketAddr) :=
  let left := leftToTry parseIp cluster tried
  let panic := healthyPanic cluster.endpoints.length ejected maxEjectedPercent
  let healthy := left.filter fun p => panic || !ejected p.1
  if healthy.isEmpty then left else healthy

/-- The endpoint at the round-robin cursor, unless this request already tried
it or it is ejected; then one of those still eligible, by the same cursor. -/
def pickEndpoint (cluster : Cluster) (cursor : Nat) (tried : List SocketAddr)
    (ejected : Nat → Bool) (maxEjectedPercent : Nat) : Except Local (Nat × SocketAddr) :=
  let n := cluster.endpoints.length
  if n = 0 then .error .noEndpoints
  else
    let start := cursor % n
    match (untriedAt parseIp cluster tried start).filter fun _ => !ejected start with
    | some addr => .ok (start, addr)
    | none =>
      let pool := eligible parseIp cluster tried ejected maxEjectedPercent
      match pool[cursor % pool.length]? with
      | some picked => .ok picked
      | none => .error .noEndpoints

end

/-! ## Paths -/

/-- What is left after the first `n` bytes, `none` when they end inside a
character or past the end. -/
def afterBytes : Nat → List Char → Option (List Char)
  | 0, cs => some cs
  | _, [] => none
  | n, c :: rest => if c.utf8Size ≤ n then afterBytes (n - c.utf8Size) rest else none

def trimEndSlashes (s : String) : String := String.ofList (s.toList.rdropWhile (· == '/'))

/-- The part of the path a prefix replacement keeps; `none` on a regex match,
which translation and the store's compiler keep from coming here. -/
def keptRest (pathIn : String) : PathMatch → Option String
  | .pathPrefix value =>
    if value == "/" then some pathIn
    else some (String.ofList ((afterBytes value.utf8ByteSize pathIn.toList).getD []))
  | .exact _ => some ""
  | .regex _ => none

def rewritePath (modifier : PathRewrite) (pathIn : String) (matched : PathMatch) : Option String :=
  match modifier with
  | .replaceFullPath p => some p
  | .replacePrefixMatch replacement => (keptRest pathIn matched).map fun rest =>
    if replacement == "/" then if rest.isEmpty then "/" else rest
    else
      let p := trimEndSlashes replacement ++ rest
      if p.isEmpty then "/" else p

/-- An explicit port wins, else none beside an explicit scheme, else the port
the request came in on; a scheme's own port is left out. -/
def redirectLocation (r : Redirect) (schemeIn hostIn : String) (portIn : Nat) (pathIn : String)
    (query : Option String) (matched : PathMatch) : Option String :=
  let scheme := r.scheme.getD schemeIn
  let host := r.hostname.getD hostIn
  let port := match r.port, r.scheme with
    | some p, _ => some p
    | none, some _ => none
    | none, none => some portIn
  let defaultPort := if scheme == "https" then 443 else 80
  let portPart := match port with
    | some p => if p == defaultPort then "" else ":" ++ toString p
    | none => ""
  let path := match r.path with
    | some m => rewritePath m pathIn matched
    | none => some pathIn
  let queryPart := match query with
    | some q => "?" ++ q
    | none => ""
  path.map fun path => scheme ++ "://" ++ host ++ portPart ++ path ++ queryPart

end Gapura.Proxy.Select
