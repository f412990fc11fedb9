import Waitress.Environment
import Waitress.Library.Raising

/-!
# Proxy headers

`parse_proxy_headers` first reads the trusted headers and then rewrites the
environment.  Every reading step is a function of the environment of its own;
warnings about unknown tokens are left out.
-/

namespace Waitress

/-- The exceptions that `parse_proxy_headers` catches or raises. -/
inductive ProxyExc where
  | malformedProxyHeader (header reason value : Str)
  | valueError (message : Str)
  | indexError (message : Str)
  | keyError (key : Str)
  deriving DecidableEq, Repr

def ProxyExc.message : ProxyExc → Str
  | .malformedProxyHeader header reason value =>
      "('".toList ++ header ++ "', '".toList ++ reason ++ "', '".toList ++ value ++ "')".toList
  | .valueError message => message
  | .indexError message => message
  | .keyError key => "'".toList ++ key ++ "'".toList

abbrev ProxyM := Raising ProxyExc Environ

def proxyHeaders : List Str :=
  ["X_FORWARDED_FOR".toList, "X_FORWARDED_HOST".toList, "X_FORWARDED_PROTO".toList,
    "X_FORWARDED_PORT".toList, "X_FORWARDED_BY".toList, "FORWARDED".toList]

structure Forwarded where
  forBy : Str := []
  forFor : Str := []
  host : Str := []
  proto : Str := []
  deriving DecidableEq, Repr

namespace ProxyHeaders

def unquoted (value : Str) : Except ProxyExc Str :=
  match undquote value with
  | .ok value => .ok value
  | .error message => .error (.valueError message)

def orMalformed {Value : Type} (header value : Str) (result : Except ProxyExc Value) :
    Except ProxyExc Value :=
  match result with
  | .ok value => .ok value
  | .error exc => .error (.malformedProxyHeader header exc.message value)

/-- One element of `X-Forwarded-For`.  IPv6 addresses are put in brackets, assuming that they
do not include a port number. -/
def forwardHop (element : Str) : Except ProxyExc Str :=
  match unquoted (Str.strip element) with
  | .error exc => .error exc
  | .ok hop =>
      if '.' ∉ hop ∧ ':' ∈ hop ∧ hop.getLast? ≠ some ']' then .ok ('[' :: (hop ++ [']']))
      else .ok hop

def forwardHost (element : Str) : Except ProxyExc Str := unquoted (Str.strip element)

/-- The elements of a list that were added by trusted proxies, the oldest first. -/
def trustedElements (count : Int) (value : Str) : List Str := sliceFrom (Str.split ',' value) (-count)

/-- The first of the last `count` elements of a header value, all of which are read. -/
def oldestElement (read : Str → Except ProxyExc Str) (count : Int) (value : Str) :
    Except ProxyExc Str :=
  match (Str.split ',' value).mapM read with
  | .error exc => .error exc
  | .ok elements =>
      match (sliceFrom elements (-count)).head? with
      | some element => .ok element
      | none => .error (.indexError "list index out of range".toList)

def lastElements (count : Int) (value : Str) : Str :=
  Str.strip (Str.join [','] (trustedElements count value))

def singleValue (value : Str) : Except ProxyExc Str :=
  match unquoted value with
  | .error exc => .error exc
  | .ok value =>
      if ',' ∈ value then
        .error (.valueError "Unspecified behavior for multiple values found in header".toList)
      else .ok value

def forwardedPair (proxy : Forwarded) (pair : Str) : Except ProxyExc Forwarded :=
  let pair := Str.lower pair
  if pair = [] then .ok proxy
  else
    let (token, equals, value) := Str.partition '=' pair
    if equals ≠ ['='] then .error (.valueError "Invalid forwarded-pair missing \"=\"".toList)
    else if Str.strip token ≠ token then
      .error (.valueError "Token may not be surrounded by whitespace".toList)
    else if Str.strip value ≠ value then
      .error (.valueError "Value may not be surrounded by whitespace".toList)
    else if token = "by".toList then (unquoted value).map fun value => { proxy with forBy := value }
    else if token = "for".toList then
      (unquoted value).map fun value => { proxy with forFor := value }
    else if token = "host".toList then
      (unquoted value).map fun value => { proxy with host := value }
    else if token = "proto".toList then
      (unquoted value).map fun value => { proxy with proto := value }
    else .ok proxy

def forwardedElement (element : Str) : Except ProxyExc Forwarded :=
  (Str.split ';' (Str.strip element)).foldlM forwardedPair {}

/-! ### Reading -/

/-- The local variables that are read from the headers. -/
structure Collected where
  forwardedHost : Str := []
  forwardedProto : Str := []
  forwardedPort : Str := []
  /-- A header that is missing and an empty one are both false. -/
  forwarded : Str := []
  clientAddr : Option Str := none
  deriving DecidableEq, Repr

section Reading

variable (trusted : List Str) (count : Int)

/-- The value of a header, if it is trusted and present. -/
def trustedValue (name key : String) (environ : Environ) : Option Str :=
  if name.toList ∈ trusted then environ.get? key.toList else none

def readElement (name header key : String) (read : Str → Except ProxyExc Str) (environ : Environ) :
    Except ProxyExc (Option Str) :=
  match trustedValue trusted name key environ with
  | some value => (orMalformed header.toList value (oldestElement read count value)).map some
  | none => .ok none

def keepElements (name key : String) (environ : Environ) : Environ :=
  match trustedValue trusted name key environ with
  | some value => environ.set key.toList (lastElements count value)
  | none => environ

def readSingle (name header key : String) (environ : Environ) : Except ProxyExc Str :=
  let value := (trustedValue trusted name key environ).getD []
  orMalformed header.toList value (singleValue value)

def readFor := readElement trusted count "x-forwarded-for" "X-Forwarded-For" "HTTP_X_FORWARDED_FOR"
  forwardHop

def keepFor := keepElements trusted count "x-forwarded-for" "HTTP_X_FORWARDED_FOR"

def readHost :=
  readElement trusted count "x-forwarded-host" "X-Forwarded-Host" "HTTP_X_FORWARDED_HOST"
    forwardHost

def keepHost := keepElements trusted count "x-forwarded-host" "HTTP_X_FORWARDED_HOST"

def readProto :=
  readSingle trusted "x-forwarded-proto" "X-Forwarded-Proto" "HTTP_X_FORWARDED_PROTO"

def readPort := readSingle trusted "x-forwarded-port" "X-Forwarded-Port" "HTTP_X_FORWARDED_PORT"

def readForwarded (environ : Environ) : Str :=
  if "forwarded".toList ∈ trusted then environ.getD "HTTP_FORWARDED".toList [] else []

def untrustedHeaders (environ : Environ) : List Str :=
  if "forwarded".toList ∈ trusted then proxyHeaders.erase "FORWARDED".toList
  else
    proxyHeaders.filter fun header =>
      !(header = "X_FORWARDED_FOR".toList ∧ "x-forwarded-for".toList ∈ trusted ∧
          environ.contains "HTTP_X_FORWARDED_FOR".toList = true ∨
        header = "X_FORWARDED_HOST".toList ∧ "x-forwarded-host".toList ∈ trusted ∧
          environ.contains "HTTP_X_FORWARDED_HOST".toList = true ∨
        header = "X_FORWARDED_PROTO".toList ∧ "x-forwarded-proto".toList ∈ trusted ∨
        header = "X_FORWARDED_PORT".toList ∧ "x-forwarded-port".toList ∈ trusted ∨
        header = "X_FORWARDED_BY".toList ∧ "x-forwarded-by".toList ∈ trusted)

/-- The part of `parse_proxy_headers` before the `Forwarded` header. -/
def collect : ProxyM Collected := do
  let client ← MonadExcept.ofExcept (readFor trusted count (← get))
  modify (keepFor trusted count)
  let host ← MonadExcept.ofExcept (readHost trusted count (← get))
  modify (keepHost trusted count)
  let proto ← MonadExcept.ofExcept (readProto trusted (← get))
  let port ← MonadExcept.ofExcept (readPort trusted (← get))
  let forwarded := readForwarded trusted (← get)
  return {
    forwardedHost := host.getD []
    forwardedProto := proto
    forwardedPort := port
    forwarded
    clientAddr := client }

def orElse (value other : Str) : Str := if value = [] then other else value

def fillIn (collected : Collected) (proxy : Forwarded) : Collected :=
  { collected with
    clientAddr := if proxy.forFor = [] then collected.clientAddr else some proxy.forFor
    forwardedHost := orElse proxy.host collected.forwardedHost
    forwardedProto := orElse proxy.proto collected.forwardedProto }

/-- If the `Forwarded` header exists, it gets priority.  The loop over the elements leaves the
values of the last one in the local variables. -/
def applyForwarded (collected : Collected) : ProxyM Collected := do
  if collected.forwarded = [] then return collected
  let elements := Str.split ',' collected.forwarded
  let proxies ← MonadExcept.ofExcept
    (orMalformed "Forwarded".toList collected.forwarded (elements.mapM forwardedElement))
  modify fun environ =>
    environ.set "HTTP_FORWARDED".toList (lastElements count collected.forwarded)
  let last := proxies.getLast?.getD {}
  let leftOver := { collected with
    forwardedHost := last.host
    forwardedProto := last.proto
    forwardedPort := [] }
  return (sliceFrom proxies (-count)).reverse.foldl fillIn leftOver

end Reading

/-! ### Rewriting -/

def applyProto (collected : Collected) : ProxyM Collected := do
  if collected.forwardedProto = [] then return collected
  let proto := Str.lower collected.forwardedProto
  if proto ∉ ["http".toList, "https".toList] then
    throw (.malformedProxyHeader
      (if collected.forwarded = [] then "X-Forwarded-Proto".toList else "Forwarded Proto=".toList)
      "unsupported proto value".toList proto)
  modify fun environ => environ.set "wsgi.url_scheme".toList proto
  if collected.forwardedPort = [] then
    return { collected with
      forwardedProto := proto
      forwardedPort := if proto = "http".toList then "80".toList else "443".toList }
  else return { collected with forwardedProto := proto }

/-- Does a text end in `:port`, rather than in a bracketed address? -/
def hasPort (text : Str) : Bool := ':' ∈ text ∧ text.getLast? ≠ some ']'

def hostWithPort (host port scheme : Str) : Str :=
  if port = [] then host
  else if port ∉ ["443".toList, "80".toList] ∨ port = "80".toList ∧ scheme ≠ "http".toList ∨
      port = "443".toList ∧ scheme ≠ "https".toList then
    host ++ [':'] ++ port
  else host

def urlScheme : ProxyM Str := do
  match (← get).get? "wsgi.url_scheme".toList with
  | some scheme => return scheme
  | none => throw (.keyError "wsgi.url_scheme".toList)

def applyHost (collected : Collected) : ProxyM Collected := do
  let host := collected.forwardedHost
  if host = [] then return collected
  if hasPort host then
    let (name, port) := Str.rsplit ':' host
    -- the port of the host is trusted over the others
    modify fun environ =>
      (environ.set "SERVER_NAME".toList (Str.strip name)).set "HTTP_HOST".toList host
    return { collected with forwardedPort := port }
  else
    modify fun environ => (environ.set "SERVER_NAME".toList host).set "HTTP_HOST".toList host
    -- only a port 80 or 443 is compared with the scheme
    let scheme ←
      if collected.forwardedPort ∈ ["443".toList, "80".toList] then urlScheme else pure []
    modify fun environ =>
      environ.set "HTTP_HOST".toList (hostWithPort host collected.forwardedPort scheme)
    return collected

def applyPort (collected : Collected) : ProxyM Unit :=
  if collected.forwardedPort = [] then pure ()
  else modify fun environ => environ.set "SERVER_PORT".toList collected.forwardedPort

def stripBrackets (addr : Str) : Except ProxyExc Str :=
  if addr = [] then .error (.indexError "string index out of range".toList)
  else if addr.head? = some '[' ∧ addr.getLast? = some ']' then .ok addr.tail.dropLast
  else .ok addr

def splitClient (client : Str) : Str × Option Str :=
  if hasPort client then
    ((Str.rsplit ':' client).1.strip, some (Str.rsplit ':' client).2.strip)
  else (client.strip, none)

def applyClient (client : Option Str) : ProxyM Unit := do
  let client := client.getD []
  if client = [] then return ()
  let (addr, port) := splitClient client
  let addr ← MonadExcept.ofExcept (stripBrackets addr)
  modify fun environ => environ.set "REMOTE_ADDR".toList addr
  match port with
  | some port => modify fun environ => environ.set "REMOTE_PORT".toList port
  | none => pure ()
  modify fun environ => environ.set "REMOTE_HOST".toList addr

/-- The part of `parse_proxy_headers` up to the scheme. -/
def gather (trusted : List Str) (count : Int) : ProxyM Collected := do
  let collected ← collect trusted count
  let collected ← applyForwarded count collected
  applyProto collected

/-- `parse_proxy_headers`; it returns the headers that remain untrusted. -/
def parseProxyHeaders (trusted : List Str) (count : Int) : ProxyM (List Str) := do
  let untrusted := untrustedHeaders trusted (← get)
  let collected ← gather trusted count
  let collected ← applyHost collected
  applyPort collected
  applyClient collected.clientAddr
  return untrusted

end ProxyHeaders

end Waitress
