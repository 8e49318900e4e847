import MediaServer.Utils.Stringex

/-!
# HTTP sessions

`net/http/http_session`: a session reads the header of one request, then its body, and
calls the handler that the server has for it.

The server is the callback of the session.  `get_handle` is a parameter, and `on_close`
erases the session, whose destructor closes it.  `log` records the reads that are
issued, the calls of a handler, and the close.  The bytes that are written are left out.
-/

namespace MediaServer

/-- `http_request`.  The body is what `content_body_` points to. -/
structure HttpRequest where
  method : Bytes := []
  uri : Bytes := []
  version : Bytes := []
  contentBody : Bytes := []
  contentLength : Int := 0
  headers : List (Bytes × Bytes) := []
  deriving DecidableEq, Repr

/-- `insert` of the map of the headers: an entry that is there stays. -/
def HttpRequest.insertHeader (key value : Bytes) (r : HttpRequest) : HttpRequest :=
  if r.headers.any (·.1 = key) then r else { r with headers := r.headers ++ [(key, value)] }

/-- What a handler does with its response. -/
inductive ResponseCall where
  | write (data : Bytes)
  | close
  deriving DecidableEq, Repr

/-- What a handler does for a request. -/
def HttpHandler : Type := HttpRequest → List ResponseCall

/-- What can be seen of a session from outside. -/
inductive HttpObs where
  | read
  | handle
  | close
  deriving DecidableEq, Repr

/-- The part of `http_session` that reads the request. -/
structure HttpInput where
  headerData : Bytes := []
  contentData : Bytes := []
  request : HttpRequest := {}
  contentStart : Int := -1
  headerIsReady : Bool := false
  deriving DecidableEq, Repr

/-- `http_session`.  `response` says whether there is a response, and whether it is
closed. -/
structure HttpSession extends HttpInput where
  isClosed : Bool := false
  response : Option Bool := none
  destroyed : Bool := false
  log : List HttpObs := []
  deriving DecidableEq, Repr

namespace HttpInput

/-- The end of a line. -/
def crlf : Bytes := [13, 10]

/-- `HTTP`. -/
def http : Bytes := [72, 84, 84, 80]

/-- `GET`. -/
def get : Bytes := [71, 69, 84]

/-- The header that gives the length of the body. -/
def contentLengthKey : Bytes := ascii "Content-Length"

/-- A blank. -/
def space : UInt8 := 32

/-- A colon. -/
def colon : UInt8 := 58

/-- What is noted of a line. -/
def addHeader (key value : Bytes) (r : HttpRequest) : HttpRequest :=
  let r := if key = contentLengthKey then { r with contentLength := atoi value } else r
  r.insertHeader key value

/-- The lines behind the first one. -/
def readHeaders : List Bytes → HttpRequest → Except Fault (Int × HttpRequest)
  | [], r => .ok (0, r)
  | infoLine :: rest, r =>
    match find [colon] infoLine with
    | none => .ok (-1, r)
    | some pos => do
      let value ← substr infoLine (pos + 2)
      readHeaders rest (addHeader (infoLine.take pos) value r)

/-- The first line, and the others behind it. -/
def readLines (firstLine : Bytes) (lines : List Bytes) (r : HttpRequest) :
    Except Fault (Int × HttpRequest) :=
  match stringSplitAt firstLine [space] with
  | [method, uri, versionInfo] =>
    match find http versionInfo with
    | none => .ok (-1, { r with method := method, uri := uri })
    | some pos => do
      let version ← substr versionInfo (pos + 5)
      readHeaders lines { r with method := method, uri := uri, version := version }
  | _ => .ok (-1, r)

/-- `analyze_header`. -/
def analyzeHeader (s : HttpInput) : Except Fault (Int × HttpInput) :=
  match find (crlf ++ crlf) s.headerData with
  | none => .ok (0, { s with headerIsReady := false })
  | some pos =>
    let s := { s with contentStart := pos + 4, headerIsReady := true }
    match stringSplitAt (s.headerData.take pos) crlf with
    | [] => .ok (-1, s)
    | firstLine :: lines => do
      let (ret, request) ← readLines firstLine lines s.request
      return (ret, { s with request := request })

/-- What `on_read` finds of the request. -/
inductive Progress where
  | rejected
  | incomplete
  | complete (body : HttpRequest → HttpRequest)

/-- The two conditions at the end of `on_read`.  The body is set for the second one. -/
def progress (s : HttpInput) : Progress :=
  if s.request.contentLength = 0 ∨ s.request.method = get then .complete id
  else if s.contentData.length ≥ s.request.contentLength then
    .complete fun r => { r with contentBody := s.contentData }
  else .incomplete

/-- What `on_read` does with its data. -/
def takeData (data : Bytes) (s : HttpInput) : Except Fault (Progress × HttpInput) :=
  if !s.headerIsReady then do
    let (ret, s) ← analyzeHeader { s with headerData := s.headerData ++ data }
    if ret ≠ 0 then return (.rejected, s)
    if !s.headerIsReady then return (.incomplete, s)
    let s := { s with contentData := s.contentData ++ s.headerData.drop s.contentStart.toNat }
    return (s.progress, s)
  else
    let s := { s with contentData := s.contentData ++ data }
    .ok (s.progress, s)

end HttpInput

namespace HttpSession

open HttpInput

/-- `try_read`. -/
def tryRead (s : HttpSession) : HttpSession := { s with log := s.log ++ [.read] }

/-- The constructor. -/
def new : HttpSession := tryRead {}

/-- `close`. -/
def close (s : HttpSession) : HttpSession :=
  if s.isClosed then s
  else { s with isClosed := true, response := s.response.map fun _ => true, log := s.log ++ [.close] }

/-- `on_close` of the server. -/
def onClose (s : HttpSession) : HttpSession := { s.close with destroyed := true }

/-- A call on the response.  `close` closes its session unless it is closed. -/
def respond (s : HttpSession) : ResponseCall → HttpSession
  | .write _ => s
  | .close =>
    if s.response = some false then close { s with response := some true } else s

/-- A complete request, with the response that is made for it. -/
def handle (getHandle : HttpRequest → Option HttpHandler) (body : HttpRequest → HttpRequest)
    (s : HttpSession) : HttpSession :=
  match getHandle s.request with
  | none => s.close
  | some handler =>
    let s := { s with response := some false, request := body s.request, log := s.log ++ [.handle] }
    (handler s.request).foldl respond s

/-- `on_read`.  After `close()` it goes on. -/
def onRead (getHandle : HttpRequest → Option HttpHandler) (retCode : Int) (data : Bytes)
    (s : HttpSession) : Except Fault HttpSession := do
  let s := if retCode ≠ 0 then s.close else s
  let (found, input) ← s.toHttpInput.takeData data
  let s := { s with toHttpInput := input }
  match found with
  | .rejected => return s.onClose
  | .incomplete => return s.tryRead
  | .complete body => return s.handle getHandle body

/-- `on_write`. -/
def onWrite (retCode : Int) (s : HttpSession) : HttpSession := if retCode ≠ 0 then s.close else s

/-- What happens to a session.  A handler may have kept the response, and close it
later. -/
inductive Event where
  | read (retCode : Int) (data : Bytes)
  | write (retCode : Int)
  | closeResponse
  deriving DecidableEq, Repr

/-- One callback.  A session that has been erased has none. -/
def step (getHandle : HttpRequest → Option HttpHandler) (e : Event) (s : HttpSession) :
    Except Fault HttpSession :=
  if s.destroyed then .error .useAfterFree
  else
    match e with
    | .read retCode data => s.onRead getHandle retCode data
    | .write retCode => .ok (s.onWrite retCode)
    | .closeResponse => .ok (s.respond .close)

end HttpSession

end MediaServer
