import Waitress.Adjustments
import Waitress.Library.Raising
import Waitress.Receiver
import Waitress.Urllib

/-!
# The HTTP request parser

`received` takes a segment of the stream and returns the parser after it with
the number of bytes consumed or the exception that escaped.
-/

namespace Waitress

/-- What `parse_header` assigns.  The optional attributes do not exist before. -/
structure RequestHead where
  headers : Dict Str Str := {}
  firstLine : Option Bytes := none
  requestUri : Option Str := none
  command : Option Str := none
  version : Str := "1.0".toList
  proxyScheme : Option Str := none
  proxyNetloc : Option Str := none
  path : Option Str := none
  query : Option Str := none
  fragment : Option Str := none
  urlScheme : Option Str := none
  connectionClose : Bool := false
  expectContinue : Bool := false
  chunked : Bool := false
  contentLength : Int := 0
  bodyRcv : Option Receiver := none
  deriving DecidableEq, Repr

structure HTTPRequestParser extends RequestHead where
  /-- Set once the request is completed. -/
  completed : Bool := false
  /-- Set if no request was made. -/
  empty : Bool := false
  /-- True when the headers have been read. -/
  headersFinished : Bool := false
  headerPlus : Bytes := []
  headerBytesReceived : Nat := 0
  bodyBytesReceived : Nat := 0
  error : Option Error := none
  deriving DecidableEq, Repr

abbrev HeadM := Raising Exc RequestHead

def singletonFields : List Str :=
  ["HOST".toList, "CONTENT_LENGTH".toList, "CONTENT_TYPE".toList]

def unquoteBytesToWsgi (bytestring : Bytes) : Str := decodeLatin1 (unquoteToBytes bytestring)

structure SplitUri where
  scheme : Str
  netloc : Str
  path : Str
  query : Str
  fragment : Str
  deriving DecidableEq, Repr

/-- Only `UnicodeError` is turned into a parsing error. -/
def splitUri [CPython] (uri : Bytes) : Except Exc SplitUri :=
  let decoded (parts : SplitResult) : SplitUri :=
    { scheme := decodeLatin1 parts.scheme
      netloc := decodeLatin1 parts.netloc
      path := unquoteBytesToWsgi parts.path
      query := decodeLatin1 parts.query
      fragment := decodeLatin1 parts.fragment }
  if uri.take 2 = ascii "//" then
    let (path, fragment) := Bytes.partitionAt 35 uri
    let (path, query) := Bytes.partitionAt 63 path
    .ok (decoded { scheme := [], netloc := [], path, query, fragment })
  else
    match urlsplit uri with
    | .ok parts => .ok (decoded parts)
    | .error .unicodeError => .error (.parsingError "Bad URI".toList)
    | .error exc => .error exc

def headerLinesLoop (r : List Bytes) : List Bytes → Except Exc (List Bytes)
  | [] => .ok r
  | line :: lines =>
      if line = [] then headerLinesLoop r lines
      else if 13 ∈ line ∨ 10 ∈ line then
        .error (.parsingError
          ("Bare CR or LF found in header line \"".toList ++ decodeLatin1 line ++ "\"".toList))
      else if line.head? = some 32 ∨ line.head? = some 9 then
        match r.getLast? with
        | none =>
            .error (.parsingError
              ("Malformed header line \"".toList ++ decodeLatin1 line ++ "\"".toList))
        | some last => headerLinesLoop (r.dropLast ++ [last ++ line]) lines
      else headerLinesLoop (r ++ [line]) lines

/-- Splits the header into lines, putting multi-line headers together. -/
def getHeaderLines (header : Bytes) : Except Exc (List Bytes) :=
  headerLinesLoop [] (Bytes.splitLines header)

def firstLineRe : Regex UInt8 :=
  let outside (codes : List Nat) : Regex UInt8 := .cls fun x => x.toNat ∉ codes
  let literal (text : String) : Regex UInt8 :=
    (ascii text).foldr (fun x more => .seq (.cls (· = x)) more) .empty
  .seq (.group "method" (.plus true (classOf UInt8.toNat tchar)))
    (.seq (literal " ")
      (.seq
        (.group "uri"
          (.seq
            (.opt
              -- [^ :?#]+://[^ ?#/]*(?:[0-9]{1,5})?
              (.seq (.plus true (outside [32, 58, 63, 35]))
                (.seq (literal "://")
                  (.seq (.star true (outside [32, 63, 35, 47]))
                    (.opt (.upTo (classOf UInt8.toNat digit) 4))))))
            (.plus true (outside [32]))))
        (.opt
          (.seq (literal " HTTP/")
            (.group "version"
              (.seq (classOf UInt8.toNat digit)
                (.seq (literal ".") (classOf UInt8.toNat digit))))))))

/-- The method, the target and the version; three empty strings if the line is
no request line at all. -/
def crackFirstLine (line : Bytes) : Except Exc (Bytes × Bytes × Bytes) :=
  match firstLineRe.fullMatch? line with
  | none => .ok ([], [], [])
  | some captures =>
      let version := (captures.lookup "version").getD []
      let method := (captures.lookup "method").getD []
      let uri := (captures.lookup "uri").getD []
      if method ≠ Bytes.upper method then
        .error (.parsingError
          ("Malformed HTTP method \"".toList ++ decodeLatin1 method ++ "\"".toList))
      else .ok (method, uri, version)

def headerKey (name : Bytes) : Str := decodeLatin1 (Bytes.replaceByte 45 95 (Bytes.upper name))

def parseHeaderLine (line : Bytes) : HeadM Unit := do
  match matchLine headerFieldRe line with
  | none => throw (.parsingError "Invalid header".toList)
  | some header =>
      let key := (header.lookup "name").getD []
      let value := Bytes.stripChars (ascii " \t") ((header.lookup "value").getD [])
      if 95 ∈ key then pure ()
      else
        let key1 := headerKey key
        let head ← get
        match head.headers.get? key1 with
        | none =>
            modify fun head => { head with headers := head.headers.set key1 (decodeLatin1 value) }
        | some given =>
            if key1 ∈ singletonFields then
              throw (.parsingError ("Duplicate header: ".toList ++ decodeLatin1 key))
            else
              modify fun head =>
                { head with
                  headers := head.headers.set key1 (given ++ decodeLatin1 (ascii ", " ++ value)) }

/-- The part of `parse_header` that reads the lines; it returns the start line. -/
def parseLines (headerPlus : Bytes) : HeadM (Bytes × Bytes × Bytes) := do
  match Search.find crlf headerPlus with
  | none => throw (.parsingError "HTTP message header invalid".toList)
  | some index =>
      let firstLine := Bytes.rstrip (headerPlus.take index)
      let header := headerPlus.drop (index + 2)
      if 13 ∈ firstLine ∨ 10 ∈ firstLine then
        throw (.parsingError "Bare CR or LF found in HTTP message".toList)
      modify fun head => { head with firstLine := some firstLine }
      let lines ← MonadExcept.ofExcept (getHeaderLines header)
      forM lines parseHeaderLine
      let (command, uri, version) ← MonadExcept.ofExcept (crackFirstLine firstLine)
      if command = [] ∧ uri = [] ∧ version = [] then
        throw (.parsingError "Start line is invalid".toList)
      return (command, uri, version)

def parseTarget [CPython] (adj : Adjustments) (command uri version : Bytes) : HeadM Unit := do
  modify fun head =>
    { head with
      requestUri := some (decodeLatin1 uri)
      command := some (decodeLatin1 command)
      version := decodeLatin1 version }
  let parts ← MonadExcept.ofExcept (splitUri uri)
  modify fun head =>
    { head with
      proxyScheme := some parts.scheme
      proxyNetloc := some parts.netloc
      path := some parts.path
      query := some parts.query
      fragment := some parts.fragment
      urlScheme := some adj.urlScheme }

def parseKeepAlive (version connection : Str) : HeadM Unit :=
  if version = "1.0".toList ∧ Str.lower connection ≠ "keep-alive".toList then
    modify fun head => { head with connectionClose := true }
  else pure ()

def encodings (te : Str) : List Str :=
  ((Str.split ',' te).filter (· ≠ [])).map fun encoding =>
    Str.lower (Str.stripChars " \t".toList encoding)

/-- The part about version 1.1: transfer codings, expectation and connection. -/
def parseTransferEncoding (adj : Adjustments) (connection : Str) : HeadM Unit := do
  let te := (← get).headers.getD "TRANSFER_ENCODING".toList []
  modify fun head => { head with headers := head.headers.erase "TRANSFER_ENCODING".toList }
  let codings := encodings te
  if ∃ coding ∈ codings, coding ≠ "chunked".toList then
    throw (.transferEncodingNotImplemented "Transfer-Encoding requested is not supported.".toList)
  if codings.getLast? = some "chunked".toList then
    if codings.count "chunked".toList ≠ 1 then
      throw (.transferEncodingNotImplemented
        "Transfer-Encoding is invalid. Multiple chunked encodings requested.".toList)
    let given := (← get).headers.contains "CONTENT_LENGTH".toList
    modify fun head =>
      { head with
        chunked := true
        bodyRcv := some (.chunked { buf := { overflow := adj.inbufOverflow } })
        headers := head.headers.erase "CONTENT_LENGTH".toList
        connectionClose := given || head.connectionClose }
  else if codings ≠ [] then
    throw (.transferEncodingNotImplemented "Transfer-Encoding requested is not supported.".toList)
  modify fun head =>
    { head with
      expectContinue :=
        decide (Str.lower (head.headers.getD "EXPECT".toList []) = "100-continue".toList)
      connectionClose :=
        decide (Str.lower connection = "close".toList) || head.connectionClose }

def parseContentLength (adj : Adjustments) : HeadM Unit := do
  let cl := (← get).headers.getD "CONTENT_LENGTH".toList "0".toList
  let encoded ← MonadExcept.ofExcept (encodeLatin1 cl)
  if (matchLine onlyDigitRe encoded).isSome = false then
    throw (.parsingError "Content-Length is invalid".toList)
  let length ← MonadExcept.ofExcept (intOfStr cl)
  modify fun head => { head with contentLength := length }
  if length > 0 then
    modify fun head =>
      { head with
        bodyRcv := some (.fixed
          { remain := length.toNat, buf := { overflow := adj.inbufOverflow } }) }

/-- The part of `parse_header` behind the split of the target. -/
def parseFraming (adj : Adjustments) : HeadM Unit := do
  let version := (← get).version
  let connection := (← get).headers.getD "CONNECTION".toList []
  parseKeepAlive version connection
  if version = "1.1".toList then
    parseTransferEncoding adj connection
    if (← get).chunked = false then
      parseContentLength adj
  else if (← get).chunked = false then
    parseContentLength adj

def parseHeader [CPython] (adj : Adjustments) (headerPlus : Bytes) : HeadM Unit := do
  let (command, uri, version) ← parseLines headerPlus
  parseTarget adj command uri version
  parseFraming adj

namespace HTTPRequestParser

def exceeds (limit : String) (value : Int) : Str :=
  "exceeds ".toList ++ limit.toList ++ " of ".toList ++ intStr value

def runParseHeader [CPython] (adj : Adjustments) (parser : HTTPRequestParser)
    (headerPlus : Bytes) : HTTPRequestParser × Except Exc Unit :=
  let (result, head) := Raising.exec (parseHeader adj headerPlus) parser.toRequestHead
  ({ parser with toRequestHead := head }, result)

/-- The end of the head, whose text is `headerPlus`. -/
def receivedHead [CPython] (adj : Adjustments) (parser : HTTPRequestParser)
    (headerPlus : Bytes) : HTTPRequestParser × Except Exc Unit :=
  if headerPlus = [] then
    ({ parser with empty := true, completed := true, headersFinished := true }, .ok ())
  else
    match parser.runParseHeader adj headerPlus with
    | (parser, .error (.parsingError message)) =>
        ({ parser with
           error := some (.badRequest message), completed := true, headersFinished := true },
          .ok ())
    | (parser, .error (.transferEncodingNotImplemented message)) =>
        ({ parser with
           error := some (.serverNotImplemented message), completed := true
           headersFinished := true },
          .ok ())
    | (parser, .error exc) => (parser, .error exc)
    | (parser, .ok ()) =>
        -- No content-length header and not a t-e: chunked request.
        let completed := decide (parser.bodyRcv = none) || parser.completed
        if parser.contentLength > 0 ∧ parser.contentLength ≥ adj.maxRequestBodySize then
          ({ parser with
             error := some (.requestEntityTooLarge (exceeds "max_body" adj.maxRequestBodySize))
             completed := true
             headersFinished := true },
            .ok ())
        else ({ parser with completed, headersFinished := true }, .ok ())

/-- `received` in the body, whose receiver is `br`. -/
def receivedBody (adj : Adjustments) (parser : HTTPRequestParser) (br : Receiver) (data : Bytes) :
    HTTPRequestParser × Nat :=
  let (br, consumed) := br.received data
  let parser :=
    { parser with
      bodyRcv := some br
      bodyBytesReceived := parser.bodyBytesReceived + consumed }
  if (parser.bodyBytesReceived : Int) ≥ adj.maxRequestBodySize then
    ({ parser with
       error := some (.requestEntityTooLarge (exceeds "max_body" adj.maxRequestBodySize))
       completed := true },
      consumed)
  else if br.error.isSome = true then
    ({ parser with error := br.error, completed := true }, consumed)
  else if br.completed = true then
    ({ parser with
       completed := true
       headers :=
         if parser.chunked = true then
           parser.headers.set "CONTENT_LENGTH".toList (intStr br.len)
         else parser.headers },
      consumed)
  else (parser, consumed)

def received [CPython] (adj : Adjustments) (parser : HTTPRequestParser) (data : Bytes) :
    HTTPRequestParser × Except Exc Nat :=
  if parser.completed = true then (parser, .ok 0)
  else
    match parser.bodyRcv with
    | some br =>
        let (parser, consumed) := parser.receivedBody adj br data
        (parser, .ok consumed)
    | none =>
        let s := parser.headerPlus ++ data
        let index := findDoubleNewline s
        -- The head ends in `data`, so that the subtraction is exact.
        let consumed := data.length - (s.length - index.getD s.length)
        let parser :=
          { parser with
            headerBytesReceived := index.getD (parser.headerBytesReceived + data.length) }
        if (parser.headerBytesReceived : Int) ≥ adj.maxRequestHeaderSize then
          match parser.runParseHeader adj (ascii "GET / HTTP/1.0\r\n") with
          | (parser, .error exc) => (parser, .error exc)
          | (parser, .ok ()) =>
              ({ parser with
                 error := some (.requestHeaderFieldsTooLarge
                   (exceeds "max_header" adj.maxRequestHeaderSize))
                 completed := true },
                .ok consumed)
        else
          match index with
          | none => ({ parser with headerPlus := s }, .ok data.length)
          | some index =>
              let (parser, result) := parser.receivedHead adj (Bytes.lstrip (s.take index))
              (parser, result.map fun _ => consumed)

def getBodyStream (parser : HTTPRequestParser) : File :=
  match parser.bodyRcv with
  | some rcv => rcv.getfile
  | none => {}

end HTTPRequestParser

end Waitress
