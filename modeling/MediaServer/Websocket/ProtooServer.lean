import MediaServer.Webrtc.RoomService

/-!
# The connections of the users

`net/websocket/wsimple/protoo_server`, with the table of rooms in `room_service.cpp` and the
part of `ws_session` that decides when a connection is closed.  A connection carries
requests, responses and notifications as JSON texts, and hands them to the room that its last
join request named.

The connections are numbered in the order in which they are accepted.  The messages come to
`onRead` parsed, and `none` is a text that is not JSON.  An exception in `on_read` closes the
connection.

A room is never removed from the table, because nobody calls `remove_room_service`.
-/

namespace MediaServer

/-- A connection, as it is between two messages. -/
structure ProtooServer where
  roomId : Bytes := []
  uid : Bytes := []
  /-- The room in `ev_cb_ptr_`, by its name. -/
  evCb : Option Bytes := none
  deriving DecidableEq

/-- The server, with the rooms and the connections. -/
structure Server where
  /-- `s_rooms`. -/
  rooms : OrderedMap Bytes Room := .empty
  /-- The connections that are open. -/
  connections : OrderedMap Connection ProtooServer := .empty
  /-- The connections that have been accepted. -/
  opened : Nat := 0
  /-- The connection, the room and the user of every join request that was accepted.  The
  program does not keep it. -/
  joined : List (Connection × Bytes × Bytes) := []

namespace ProtooServer

/-! ## Requests -/

/-- `std::to_string`. -/
def idText (id : Int) : Bytes := ascii (toString id)

/-- A request as it is passed to a room. -/
structure Request where
  id : Bytes
  method : Bytes
  data : Json

/-- The checks at the beginning of `on_request`. -/
def readRequest (body : Json) : Option Request := do
  let id ← body.numberAt "id"
  let method ← body.textAt "method"
  let data ← body.objectAt "data"
  return { id := idText id, method, data }

/-- What a join request leaves in the connection before the room sees it.  The name of the
room stays when there is no name of the user. -/
def recordJoin (data : Json) (p : ProtooServer) : Option Unit × ProtooServer :=
  match data.textAt "roomId" with
  | none => (none, p)
  | some roomId =>
    match data.textAt "uid" with
    | none => (none, { p with roomId })
    | some uid => (some (), { p with roomId, uid, evCb := some roomId })

/-- `on_request` up to the call of the room: the request and the name of the room, or `none`
if it throws, and the connection afterwards. -/
def prepare (body : Json) (p : ProtooServer) : Option (Request × Bytes) × ProtooServer :=
  match readRequest body with
  | none => (none, p)
  | some request =>
    let (recorded, p) :=
      if request.method = ascii "join" then p.recordJoin request.data else (some (), p)
    match recorded, p.evCb with
    | some (), some name => (some (request, name), p)
    | _, _ => (none, p)

/-! ## Responses and notifications -/

/-- Whether `on_reponse` returns.  The data of a response that is ok is an object and cannot
be converted to a text. -/
def onReponse (body : Json) (p : ProtooServer) : Option Unit := do
  let ok ← (body.find "ok").bind Json.bool?
  let _ ← body.numberAt "id"
  if ok then none
  else
    let _ ← body.numberAt "errorCode"
    let _ ← body.textAt "errorReason"
    let _ ← p.evCb

/-- The notification for the room. -/
def readNotification (body : Json) (p : ProtooServer) : Option (Bytes × Json × Bytes) := do
  let method ← body.textAt "method"
  let data ← body.objectAt "data"
  let name ← p.evCb
  return (method, data, name)

/-- What `on_close` tells the room.  A connection without a name of a user or of a room tells
nothing. -/
def closeData (p : ProtooServer) : Option Json :=
  if p.uid = [] ∨ p.roomId = [] then none
  else some (.obj [(ascii "roomId", .str p.roomId), (ascii "uid", .str p.uid)])

end ProtooServer

namespace Server

open ProtooServer

variable (libs : RoomLibs)

/-- `GetorCreate_room_service`. -/
def getOrCreateRoomService (s : Server) (name : Bytes) : Room :=
  (s.rooms.find? name).getD { roomId := name }

/-- The room has changed. -/
def setRoom (s : Server) (name : Bytes) (r : Room) : Server :=
  { s with rooms := s.rooms.assign name r }

/-- The connection has changed. -/
def setConnection (s : Server) (c : Connection) (p : ProtooServer) : Server :=
  { s with connections := s.connections.assign c p }

/-- The join request that the room accepts. -/
def acceptedJoin (c : Connection) (request : Request) (name : Bytes) (r : Room) :
    List (Connection × Bytes × Bytes) :=
  if request.method = ascii "join" then
    match r.checkJoin request.data with
    | .ok uid => [(c, name, uid)]
    | .error _ => []
  else []

/-- `on_request`. -/
def onRequest (c : Connection) (p : ProtooServer) (body : Json) (s : Server) :
    Server × Option Exit :=
  match prepare body p with
  | (none, p) => (s.setConnection c p, some .thrown)
  | (some (request, name), p) =>
    let r := s.getOrCreateRoomService name
    let out := Room.onRequest libs request.id request.method request.data c r
    ({ (s.setConnection c p).setRoom name out.room with
        joined := acceptedJoin c request name r ++ s.joined }, out.exit)

/-- `on_notification`. -/
def onNotification (p : ProtooServer) (body : Json) (s : Server) : Server × Option Exit :=
  match readNotification body p with
  | none => (s, some .thrown)
  | some (method, data, name) =>
    let out := Room.onNotification method data (s.getOrCreateRoomService name)
    (s.setRoom name out.room, out.exit)

/-- `on_read`. -/
def onRead (c : Connection) (p : ProtooServer) (body : Option Json) (s : Server) :
    Server × Option Exit :=
  match body with
  | none => (s, some .thrown)
  | some body =>
    match body.find "request" with
    | some (.bool true) => onRequest libs c p body s
    | some _ => (s, some .thrown)
    | none =>
      match body.find "response" with
      | some (.bool true) =>
        match onReponse body p with
        | some () => (s, none)
        | none => (s, some .thrown)
      | some _ => (s, some .thrown)
      | none =>
        match body.find "notification" with
        | some (.bool true) => onNotification p body s
        | some _ => (s, some .thrown)
        | none => (s, none)

/-- `on_close`, with the end of the connection.  Exceptions are caught. -/
def onClose (c : Connection) (p : ProtooServer) (s : Server) : Except Fault Server :=
  let s := { s with connections := s.connections.erase c }
  match p.closeData, p.evCb with
  | none, _ => .ok s
  | some _, none => .error .nullPointer
  | some data, some name =>
    .ok (s.setRoom name
      (Room.onNotification (ascii "close") data (s.getOrCreateRoomService name)).room)

/-- `close_session` of the connection, which does nothing the second time. -/
def closeSession (c : Connection) (s : Server) : Except Fault Server :=
  match s.connections.find? c with
  | none => .ok s
  | some p => onClose c p s

/-! ## Events -/

/-- What happens at the server. -/
inductive Event where
  | accept
  | read (c : Connection) (body : Option Json)
  | close (c : Connection)

/-- One step of the server. -/
def step (e : Event) (s : Server) : Except Fault Server :=
  match e with
  | .accept =>
    .ok { s with connections := s.connections.assign s.opened {}, opened := s.opened + 1 }
  | .read c body =>
    match s.connections.find? c with
    | none => .ok s
    | some p =>
      match onRead libs c p body s with
      | (s, none) => .ok s
      | (s, some .thrown) => closeSession c s
      | (_, some (.fault f)) => .error f
  | .close c => closeSession c s

end Server

end MediaServer
