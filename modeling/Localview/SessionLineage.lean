import Localview.SurfaceRecovery

/-! # Session lineages

What a durable session identity is keyed by, from `sessions/src/identity.rs`: the
project a server runs in, its path normalized, or its endpoint where it has no
project, and the kind of the server.
-/
namespace Localview
open EarlyReturn

/-- Where a server listens. -/
structure Endpoint where
  host : String
  port : UInt16
  scheme : String
  deriving DecidableEq

/-- What a server is taken for. -/
inductive ServerKind
  | frontendDevServer
  | storybook
  | apiServer
  | staticSite
  | unknownHttp
  deriving DecidableEq

/-- What `project_identity` says of a server's project. -/
structure ProjectIdentity where
  key : String
  (cwd gitRoot : Option String)

/-- What a lineage is tied to. -/
inductive SessionLineageAnchor
  | project (normalizedProjectPath : String)
  | endpoint (scheme host : String) (port : UInt16)
  deriving DecidableEq

/-- `SessionLineage::V1`; the kinds of `SessionServerKind` are those of `ServerKind`. -/
structure SessionLineage where
  anchor : SessionLineageAnchor
  serverKind : ServerKind
  deriving DecidableEq

/-- Why a server has no lineage. -/
inductive SessionIdentityError
  | invalidProjectPath
  | parentTraversal
  | invalidEndpointScheme
  | invalidEndpointHost
  deriving DecidableEq

def maxNormalizedProjectPathBytes : Nat := 4096
def maxEndpointHostBytes : Nat := 255
def maxEndpointSchemeBytes : Nat := 32

/-- `PathFlavor`: what the program was built for.  `to_lowercase` of the Windows
flavor is the standard library's. -/
inductive PathFlavor
  | unix
  | windows (toLowercase : List Char → List Char)

def validateEndpointPart (value : String) (maxBytes : Nat) (error : SessionIdentityError) :
    Except SessionIdentityError String := do
  rejectIf (value.isEmpty ∨ maxBytes < value.utf8ByteSize ∨
    value.toList.any isControl = true) error
  return value

def normalizedComponents : List (List Char) → Except SessionIdentityError (List (List Char))
  | [] => .ok []
  | component :: rest =>
      if component = [] ∨ component = ['.'] then normalizedComponents rest
      else if component = ['.', '.'] then .error .parentTraversal
      else (normalizedComponents rest).map (component :: ·)

/-- The components with slashes between them. -/
def joinComponents (components : List (List Char)) : List Char :=
  (components.intersperse ['/']).flatten

def normalizeUnixPath (raw : List Char) : Except SessionIdentityError (List Char) := do
  let rooted := raw.head? = some '/'
  let components ← normalizedComponents (raw.splitOn '/')
  if components = [] then
    if rooted then .ok ['/'] else .error .invalidProjectPath
  else
    let joined := joinComponents components
    .ok (if rooted then '/' :: joined else joined)

/-- The prefix of a Windows path and what follows it. -/
def windowsPrefix (replaced : List Char) : List Char × List Char :=
  let trimmed (rest : List Char) := rest.dropWhile (· = '/')
  match replaced with
  | '/' :: '/' :: _ => (['/', '/'], trimmed replaced)
  | '/' :: _ => (['/'], trimmed replaced)
  | drive :: ':' :: after =>
      if drive.isAlpha then
        if after.head? = some '/' then ([drive, ':', '/'], trimmed after)
        else ([drive, ':'], after)
      else ([], replaced)
  | _ => ([], replaced)

def normalizeWindowsPath (toLowercase : List Char → List Char) (raw : List Char) :
    Except SessionIdentityError (List Char) := do
  let replaced := toLowercase (raw.map fun c => if c = '\\' then '/' else c)
  let (kept, rest) := windowsPrefix replaced
  let components ← normalizedComponents (rest.splitOn '/')
  if components = [] then
    if kept = [] then .error .invalidProjectPath else .ok kept
  else .ok (kept ++ joinComponents components)

def normalizeProjectPath (flavor : PathFlavor) (raw : String) :
    Except SessionIdentityError String := do
  rejectIf (raw.isEmpty ∨ maxNormalizedProjectPathBytes < raw.utf8ByteSize ∨
    raw.toList.any isControl = true) .invalidProjectPath
  let normalized ← match flavor with
    | .unix => normalizeUnixPath raw.toList
    | .windows toLowercase => normalizeWindowsPath toLowercase raw.toList
  return String.ofList normalized

def sessionLineage (flavor : PathFlavor) (project : ProjectIdentity) (endpoint : Endpoint)
    (kind : ServerKind) : Except SessionIdentityError SessionLineage := do
  let endpointAnchor : Except SessionIdentityError SessionLineageAnchor := do
    let scheme ← validateEndpointPart endpoint.scheme maxEndpointSchemeBytes .invalidEndpointScheme
    let host ← validateEndpointPart endpoint.host maxEndpointHostBytes .invalidEndpointHost
    return .endpoint scheme host endpoint.port
  let anchor ← match project.gitRoot.or project.cwd with
    | some path =>
        if path.isEmpty then endpointAnchor
        else (normalizeProjectPath flavor path).map .project
    | none => endpointAnchor
  return { anchor, serverKind := kind }

/-- `validate_canonical_lineage`: whether it succeeds. -/
def SessionLineage.isCanonical (flavor : PathFlavor) (lineage : SessionLineage) : Bool :=
  match lineage.anchor with
  | .project path => (normalizeProjectPath flavor path).toOption = some path
  | .endpoint scheme host _ =>
      (validateEndpointPart scheme maxEndpointSchemeBytes .invalidEndpointScheme).isOk &&
        (validateEndpointPart host maxEndpointHostBytes .invalidEndpointHost).isOk

/-- Repeated slashes and dots go, letters keep their case. -/
example : normalizeProjectPath .unix "/Work/./app//" = .ok "/Work/app" := by decide +kernel

end Localview
