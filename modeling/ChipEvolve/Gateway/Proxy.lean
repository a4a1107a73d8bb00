import ChipEvolve.Apps.Console
import ChipEvolve.Gateway.Router
import ChipEvolve.Url
import Mathlib.Data.List.DropRight

/-!
# The proxy in front of the applications

`build_router` and `_forward` (`app.py`): a request under `/app/<name>/` is sent to the
application of that name.  A target that arrives contains no white space, for the request
line is split at it; what `urllib.request` makes of a URL is followed to the target that
it sends.
-/

namespace ChipEvolve.Gateway.Routing

open Percent Separated Url

/-! ## The target of a URL -/

/-- `unwrap` -/
def unwrap (url : Text) : Text :=
  let url := Apps.strip url
  let url :=
    if url.head? = some '<' ∧ url.getLast? = some '>' then Apps.strip (url.drop 1).dropLast
    else url
  if "URL:".toList.isPrefixOf url then Apps.strip (url.drop 4) else url

/-- `Request(url).selector` for a URL of HTTP with a host -/
def selector? (url : Text) : Option Text :=
  let url := cutAt '#' '#' (unwrap url)
  let scheme := url.takeWhile fun c ↦ c ≠ '/' && c ≠ ':'
  if "://".toList.isPrefixOf (url.drop scheme.length) then
    let rest := url.drop (scheme.length + 3)
    let path := rest.dropWhile isAuthority
    let lower := scheme.map Char.toLower
    if lower ≠ "http".toList ∧ lower ≠ "https".toList then none
    else if rest.takeWhile isAuthority = [] then none
    else some (if path = [] ∨ path.head? = some '/' then path else '/' :: path)
  else none

/-- A character that `http.client` sends in a target. -/
def isVisible (c : Char) : Bool := 0x20 < c.toNat && c.toNat < 0x7F

/-- The target of the request that `urlopen(url)` sends. -/
def requestTarget? (url : Text) : Option Text :=
  (selector? url).bind fun selector ↦
    let target := if selector = [] then ['/'] else selector
    if target.all isVisible then some target else none

/-! ## The routes -/

/-- A base URL without a path, and perhaps with slashes after it. -/
structure BaseUrl where
  secure : Bool
  authority : Text
  slashes : Nat
  authority_ne : authority ≠ []
  authority_plain : authority.all isAuthority = true

/-- What `rstrip("/")` leaves. -/
def BaseUrl.origin (b : BaseUrl) : Text :=
  (if b.secure then "https".toList else "http".toList) ++ "://".toList ++ b.authority

def BaseUrl.text (b : BaseUrl) : Text := b.origin ++ List.replicate b.slashes '/'

structure AppRegistration where
  name : Text
  baseUrl : BaseUrl

inductive Handler where
  | kernel
  | health
  | navigation
  | proxy
  deriving DecidableEq

/-- The templates of `KernelApi.register`. -/
def kernelRoutes : List (String × String) :=
  [("GET", "/kernel/health"), ("POST", "/kernel/auth/register"), ("POST", "/kernel/auth/login"),
    ("GET", "/kernel/auth/session"), ("POST", "/kernel/auth/logout"), ("GET", "/kernel/plugins"),
    ("POST", "/kernel/inputs"), ("POST", "/kernel/inputs/chunk"), ("POST", "/kernel/runs"),
    ("GET", "/kernel/runs"), ("GET", "/kernel/runs/{run_id}"),
    ("GET", "/kernel/designs/{design_id}/tree"), ("POST", "/kernel/runs/{run_id}/cancel"),
    ("POST", "/kernel/runs/{run_id}/retry"), ("POST", "/kernel/runs/{run_id}/bundle"),
    ("GET", "/kernel/runs/{run_id}/metrics"), ("GET", "/kernel/runs/{run_id}/artifacts"),
    ("GET", "/kernel/runs/{run_id}/timeline"), ("GET", "/kernel/runs/{run_id}/resources"),
    ("GET", "/kernel/runs/{run_id}/logs"),
    ("GET", "/kernel/runs/{run_id}/artifacts/{artifact_id}/excerpt"),
    ("GET", "/kernel/runs/{run_id}/artifacts/{artifact_id}/download"),
    ("GET", "/kernel/runs/{run_id}/artifacts/{artifact_id}/chunk"), ("GET", "/kernel/graph")]

/-- The routes of the entry point itself. -/
def gatewayRoutes : List (String × String × Handler) :=
  [("GET", "/health", .health), ("GET", "/", .navigation), ("GET", "/apps", .navigation),
    ("GET", "/app/{name}", .proxy), ("GET", "/app/{name}/{rest...}", .proxy),
    ("POST", "/app/{name}/{rest...}", .proxy)]

/-- `build_router`, with the kernel attached or not -/
def buildRouter (kernel : Bool) : List (Route Handler) :=
  let attached := if kernel then kernelRoutes.map fun r ↦ (r.1, r.2, Handler.kernel) else []
  (attached ++ gatewayRoutes).foldl
    (fun routes r ↦ add .ascii r.1 r.2.1.toList r.2.2 routes) []

/-! ## The proxy -/

/-- `{app.name: app for app in config.apps}.get(name)` -/
def app? (apps : List AppRegistration) (name : Text) : Option AppRegistration :=
  apps.reverse.find? fun app ↦ app.name = name

/-- The query that `proxy` writes. -/
def queryText (query : List (Text × List Text)) : Text :=
  if query = [] then [] else '?' :: urlencode (pairs query)

/-- The path that `proxy` passes on. -/
def proxyPath (params : List (Text × Text)) (query : List (Text × List Text)) : Text :=
  '/' :: (param? params "rest".toList).getD [] ++ queryText query

/-- The URL that `_forward` opens. -/
def forwardUrl (app : AppRegistration) (path : Text) : Text :=
  app.baseUrl.text.rdropWhile (· = '/') ++ path

/-- The methods that the handler serves. -/
inductive Verb where
  | get
  | post

def Verb.text : Verb → String
  | get => "GET"
  | post => "POST"

/-- The target that is sent to an application for a request, if one is. -/
def forwarded? (acceptsNetloc : Text → Bool) (apps : List AppRegistration) (kernel : Bool)
    (verb : Verb) (target : Text) : Option Text :=
  (urlparse? acceptsNetloc target).bind fun parsed ↦
  (matchRoute (buildRouter kernel) verb.text parsed.path).bind fun matched ↦
    if matched.1.handler = .proxy then
      ((param? matched.2 "name".toList).bind (app? apps)).bind fun app ↦
        requestTarget? (forwardUrl app (proxyPath matched.2 (parseQs false parsed.query)))
    else none

/-! ## Targets under an application -/

/-- A request target `/app/<mount>/<rest>`. -/
structure AppTarget where
  mount : Text
  rest : Text
  mount_ne : mount ≠ []
  mount_plain : mount.all isAuthority = true
  unbroken : (mount ++ rest).all (fun c ↦ !isSpace c) = true

namespace AppTarget

def location (t : AppTarget) : Text := "/app/".toList ++ t.mount

def text (t : AppTarget) : Text := t.location ++ '/' :: t.rest

/-- What the tail of the route captures. -/
def tail (t : AppTarget) : Text := (parsePath t.rest).path

def query (t : AppTarget) : Text := (parsePath t.rest).query

end AppTarget

/-- A target is sent whose segments and values are those of the one that came, without
the location of the application. -/
def ForwardsUnchanged (acceptsNetloc : Text → Bool) (apps : List AppRegistration) (kernel : Bool)
    (verb : Verb) (t : AppTarget) : Prop :=
  ∃ sent parsed original, forwarded? acceptsNetloc apps kernel verb t.text = some sent ∧
    urlparse? acceptsNetloc sent = some parsed ∧
    urlparse? acceptsNetloc t.text = some original ∧
    segments parsed.path = segments (original.path.drop t.location.length) ∧
    ∀ key, values (parseQs true parsed.query) key = values (parseQs true original.query) key

/-- Decoding the path once leaves nothing that means something else in a target, and no
query field is blank. -/
structure Transparent (t : AppTarget) : Prop where
  visible : ∀ c ∈ unquote t.tail, isVisible c = true ∧ c ≠ '#' ∧ c ≠ '?'
  relative : (unquote t.tail).head? ≠ some '/'
  slashes : 0x2F ∉ escapes t.tail
  once : escapes (unquote t.tail) = []
  params : withoutParams (unquote t.tail) = unquote t.tail
  fields : ∀ field ∈ t.query.splitOn '&', isBlankField field = false

end ChipEvolve.Gateway.Routing
