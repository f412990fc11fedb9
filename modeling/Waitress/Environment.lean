import Waitress.Parser

/-!
# The WSGI environment

The entries of the environment whose values are strings.  The others are the
same for every request, or objects that no header can set.
-/

namespace Waitress

abbrev Environ := Dict Str Str

/-- What `get_environment` reads of the channel and of the server. -/
structure ServerContext where
  adj : Adjustments := {}
  /-- `channel.addr[0]` -/
  addr : Str
  /-- `str(channel.addr[1])` -/
  port : Str
  /-- `str(server.effective_port)` -/
  effectivePort : Str
  serverName : Str
  deriving DecidableEq, Repr

/-- Or keep them without the `HTTP_` prefix added. -/
def renameHeaders : List (Str × Str) :=
  [("CONTENT_LENGTH".toList, "CONTENT_LENGTH".toList),
    ("CONTENT_TYPE".toList, "CONTENT_TYPE".toList)]

def environKey (key : Str) : Str := (renameHeaders.lookup key).getD ("HTTP_".toList ++ key)

def collapseSlashes (path : Str) : Str :=
  if path.head? = some '/' then '/' :: Str.lstripChars ['/'] path else path

def pathInfo (urlPrefix path : Str) : Str :=
  if urlPrefix = [] then path
  else if path = urlPrefix then []
  else if (urlPrefix ++ ['/']).isPrefixOf path then path.drop urlPrefix.length
  else path

def addHeaderEntry (environ : Environ) (header : Str × Str) : Environ :=
  if environ.contains (environKey header.1) then environ
  else environ.set (environKey header.1) header.2

/-- The entries that do not come from header fields, for a task of this version. -/
def requestEntries (server : ServerContext) (version : Str) (request : HTTPRequestParser) :
    Environ :=
  let software := match server.adj.ident with
    | some ident => [("SERVER_SOFTWARE".toList, ident)]
    | none => []
  ⟨[("REMOTE_ADDR".toList, server.addr),
    ("REMOTE_HOST".toList, server.addr),
    ("REMOTE_PORT".toList, server.port),
    -- the method of an accepted request is in upper case
    ("REQUEST_METHOD".toList, request.command.getD []),
    ("SERVER_PORT".toList, server.effectivePort),
    ("SERVER_NAME".toList, server.serverName)] ++ software ++
   [("SERVER_PROTOCOL".toList, "HTTP/".toList ++ version),
    ("SCRIPT_NAME".toList, server.adj.urlPrefix),
    ("PATH_INFO".toList, pathInfo server.adj.urlPrefix (collapseSlashes (request.path.getD []))),
    ("REQUEST_URI".toList, request.requestUri.getD []),
    ("QUERY_STRING".toList, request.query.getD []),
    ("wsgi.url_scheme".toList, request.urlScheme.getD [])]⟩

/-- `get_environment`, for a task of this version. -/
def getEnvironment (server : ServerContext) (version : Str) (request : HTTPRequestParser) :
    Environ :=
  request.headers.entries.foldl addHeaderEntry (requestEntries server version request)

/-! ### What the headers leave alone -/

theorem get?_addHeaderEntry (environ : Environ) (header : Str × Str) {key value : Str}
    (taken : environ.get? key = some value) :
    (addHeaderEntry environ header).get? key = some value := by
  rw [addHeaderEntry]
  split
  · exact taken
  · next free =>
      rw [Dict.get?_set]
      split
      · next same =>
          rw [Dict.contains, same, taken] at free
          exact absurd rfl free
      · exact taken

theorem get?_getEnvironment {server : ServerContext} {version : Str} {request : HTTPRequestParser}
    {key value : Str} (taken : (requestEntries server version request).get? key = some value) :
    (getEnvironment server version request).get? key = some value := by
  rw [getEnvironment]
  generalize requestEntries server version request = environ at taken
  induction request.headers.entries generalizing environ with
  | nil => exact taken
  | cons header headers inductionHypothesis =>
      exact inductionHypothesis _ (get?_addHeaderEntry environ header taken)

end Waitress
