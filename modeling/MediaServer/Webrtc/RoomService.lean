import MediaServer.Lib.Run
import MediaServer.Webrtc.RtcBaseSession

/-!
# The room service

`net/webrtc/room_service` and `user_info`.  Users join a room, publish and subscribe, and
leave.  A request is answered through the connection it came over, and the other users get
notifications.

A handler first checks its request and then changes the room.  The checks are functions
of their own, because the reject points are in them: `checkPublish` and the others.  An
`Outcome` is the room afterwards, what was sent, and whether the handler returned.

The ids that `make_uuid` makes are a parameter, a sequence without repetitions, of which
`made` ids have been handed out.  The SDP library, the fingerprints of the certificate and
the random names of a session are parameters too.

The order of an `unordered_map` is not specified.  It is the order of the keys here.
-/

namespace MediaServer

/-- The connection of a user, over which the room answers. -/
abbrev Connection := Nat

/-- What is sent over a connection.  The text of an answer is given by the value that is
printed. -/
inductive ProtooMessage where
  | accept (id : Bytes) (data : Json)
  | reject (id : Bytes) (errCode : Nat) (err : String)
  | notification (method : String) (data : Json)

/-- The user, or what it names, is missing or there already. -/
def UID_ERROR : Nat := 1006

/-- The room is missing, or another one. -/
def ROOMID_ERROR : Nat := 1007

/-- The offer is missing, or cannot be used. -/
def SDP_ERROR : Nat := 1008

/-- The method is not known. -/
def METHOD_ERROR : Nat := 1009

/-- The data of a request to subscribe cannot be used. -/
def SUBSCRIBE_JSON_ERROR : Nat := 1014

/-- What the room uses of the libraries and of the other parts of the server. -/
structure RoomLibs where
  /-- `sdptransform::parse`. -/
  sdpParse : Bytes → Option Json
  /-- Whether `dump` can print a value: it throws at a text that is not UTF-8. -/
  dumps : Json → Bool
  /-- `rtc_media_info_2_sdp`.  It prints the value before it encodes it, so that what it
  returns can be printed. -/
  rtcMediaInfo2Sdp : RtcMediaInfo → Option Bytes
  /-- `get_local_finger_print`, by the name of the algorithm. -/
  getLocalFingerPrint : Bytes → Option Bytes
  /-- The password and the fragment of a session, by the number of its id. -/
  iceOf : Nat → Bytes × Bytes
  /-- Whether the constructor of a session returns, by the number of its id: that of its
  `rtc_dtls` throws when OpenSSL has no memory. -/
  dtlsMade : Nat → Bool
  candidateIp : Bytes
  candidatePort : Int
  /-- `make_uuid`, by the number of the call. -/
  uuid : Nat → Bytes
  uuidInjective : ∀ m n, uuid m = uuid n → m = n

/-- `user_info`. -/
structure UserInfo where
  uid : Bytes
  roomId : Bytes
  feedback : Connection
  publishSessions : OrderedMap Bytes RtcBaseSession := .empty
  subscribeSessions : OrderedMap Bytes RtcBaseSession := .empty
  remoteMediaInfo : RtcMediaInfo := {}
  deriving DecidableEq

/-- A publisher as it is told to the users: the user, the session and the publisher. -/
abbrev Announcement := Bytes × Bytes × Bytes

/-- `room_service`. -/
structure Room where
  roomId : Bytes
  users : OrderedMap Bytes UserInfo := .empty
  pid2subscribers : Subscribers := .empty
  /-- The ids that have been made. -/
  made : Nat := 0
  /-- What `notify_publisher_to_others` was called with.  The program does not keep it. -/
  announced : List Announcement := []
  deriving DecidableEq

/-- What a handler has done. -/
structure Outcome where
  room : Room
  sent : List (Connection × ProtooMessage) := []
  exit : Option Exit := none

/-- A check ends the handler: with a reject, without an answer, or by an exception. -/
inductive Refusal where
  | reject (errCode : Nat) (err : String)
  | silent
  | throws
  deriving DecidableEq

/-- A value that the handler needs, or the refusal. -/
def orElse {α : Type} (value : Option α) (refusal : Refusal) : Except Refusal α :=
  match value with
  | some a => .ok a
  | none => .error refusal

namespace UserInfo

/-- `parse_remote_media_info`: whether `parse` returns, and the user afterwards. -/
def parseRemoteMediaInfo (user : UserInfo) (infoJson : Json) : Option Unit × UserInfo :=
  let (parsed, info) := user.remoteMediaInfo.reset.parse infoJson
  (parsed, { user with remoteMediaInfo := info })

/-- The destructors of the user and of its sessions.  The subscribe sessions go first,
because their map was declared last. -/
def destruct (user : UserInfo) (m : Subscribers) : Subscribers :=
  let closed := user.publishSessions.entries.map fun e => e.2.close
  let m := user.subscribeSessions.entries.foldl (fun m e => e.2.destruct m) m
  closed.foldl (fun m s => s.destruct m) m

end UserInfo

namespace Room

variable (libs : RoomLibs)

/-- The user of a pointer that a handler holds has changed. -/
def setUser (r : Room) (uid : Bytes) (user : UserInfo) : Room :=
  { r with users := r.users.assign uid user }

/-! ## Requests -/

/-- `get_uid_by_json`. -/
def getUidByJson (data : Json) : Bytes := (data.textAt "uid").getD []

/-- One item of the list of publishers. -/
def getPublisherInfo (item : Json) : Option PublisherInfo := do
  let pid ← item.textAt "pid"
  let mediaType ← item.textAt "type"
  let ssrc ← item.numberAt "ssrc"
  let mid ← item.numberAt "mid"
  return { pid, mediaType, ssrc := wrapUint32 ssrc, mid }

/-- The items up to the first one that is not complete. -/
def takePublishers : List Json → List PublisherInfo
  | [] => []
  | item :: rest =>
    match getPublisherInfo item with
    | none => []
    | some info => info :: takePublishers rest

/-- `get_publishers_info_by_json`. -/
def getPublishersInfoByJson (publishers : Json) : List PublisherInfo :=
  match publishers.items? with
  | none => []
  | some items => takePublishers items

/-- The user that a request names. -/
def checkUser (r : Room) (data : Json) (missing unknown : String) :
    Except Refusal (Bytes × UserInfo) := do
  let uid := getUidByJson data
  if uid = [] then .error (.reject UID_ERROR missing)
  else
    let user ← orElse (r.users.find? uid) (.reject UID_ERROR unknown)
    return (uid, user)

/-- How a handler ends that refuses. -/
def refuse (r : Room) (id : Bytes) (feedback : Connection) : Refusal → Outcome
  | .reject errCode err => { room := r, sent := [(feedback, .reject id errCode err)] }
  | .silent => { room := r }
  | .throws => { room := r, exit := some .thrown }

/-! ## Notifications -/

/-- The other users. -/
def others (r : Room) (uid : Bytes) : List UserInfo :=
  (r.users.entries.filter fun e => e.1 ≠ uid).map Prod.snd

/-- One publisher in a notification. -/
def publisherJson (info : PublisherInfo) : Json :=
  .obj [(ascii "mid", .num info.mid), (ascii "pid", .str info.pid),
    (ascii "ssrc", .num info.ssrc), (ascii "type", .str info.mediaType)]

/-- The body of a `publish` notification. -/
def publishJson (uid pcid : Bytes) (infos : List PublisherInfo) : Json :=
  .obj [(ascii "pcid", .str pcid), (ascii "publishers", .arr (infos.map publisherJson)),
    (ascii "uid", .str uid)]

/-- The body of an `unpublish` notification. -/
def unpublishJson (uid : Bytes) (infos : List PublisherInfo) : Json :=
  .obj [(ascii "publishers", .arr (infos.map publisherJson)), (ascii "uid", .str uid)]

/-- The body of a `userin` or `userout` notification. -/
def uidJson (uid : Bytes) : Json := .obj [(ascii "uid", .str uid)]

/-- A notification to all users but one. -/
def notifyOthers (r : Room) (uid : Bytes) (method : String) (data : Json) :
    List (Connection × ProtooMessage) :=
  (r.others uid).map fun user => (user.feedback, .notification method data)

/-- `notify_userin_to_others`. -/
def notifyUserinToOthers (r : Room) (uid : Bytes) : List (Connection × ProtooMessage) :=
  r.notifyOthers uid "userin" (uidJson uid)

/-- `notify_userout_to_others`. -/
def notifyUseroutToOthers (r : Room) (uid : Bytes) : List (Connection × ProtooMessage) :=
  r.notifyOthers uid "userout" (uidJson uid)

/-- `notify_publisher_to_others`. -/
def notifyPublisherToOthers (r : Room) (uid pcid : Bytes) (infos : List PublisherInfo) :
    List (Connection × ProtooMessage) :=
  r.notifyOthers uid "publish" (publishJson uid pcid infos)

/-- `notify_unpublisher_to_others`. -/
def notifyUnpublisherToOthers (r : Room) (uid : Bytes) (infos : List PublisherInfo) :
    List (Connection × ProtooMessage) :=
  r.notifyOthers uid "unpublish" (unpublishJson uid infos)

/-- The publishers of a user, with the id of the session of the last one. -/
def publishersOf (user : UserInfo) : List PublisherInfo × Bytes :=
  user.publishSessions.entries.foldl
    (fun acc e =>
      match e.2.getPublishsInformation with
      | [] => acc
      | infos => (acc.1 ++ infos, e.2.id))
    ([], [])

/-- `notify_others_publisher_to_me`: one notification for each of the other users that
publishes something. -/
def notifyOthersPublisherToMe (r : Room) (uid : Bytes) (me : Connection) :
    List (Connection × ProtooMessage) :=
  (r.users.entries.filter fun e => e.1 ≠ uid).filterMap fun e =>
    match publishersOf e.2 with
    | ([], _) => none
    | (infos, pcid) => some (me, .notification "publish" (publishJson e.1 pcid infos))

/-- What a call of `notify_publisher_to_others` tells. -/
def announcements (uid pcid : Bytes) (infos : List PublisherInfo) : List Announcement :=
  infos.map fun info => (uid, pcid, info.pid)

/-! ## The answer to an offer -/

/-- The answer that the server makes of what it supports, up to its text. -/
def answer (session : Nat) (info support : RtcMediaInfo) : Option Bytes :=
  match libs.getLocalFingerPrint info.fingerPrint.type with
  | none => none
  | some hash =>
    let ice := libs.iceOf session
    let candidate : CandidateInfo :=
      { foundation := ascii "0", component := 1, transport := ascii "udp", priority := 2113667327
        ip := libs.candidateIp, port := libs.candidatePort, type := ascii "host" }
    libs.rtcMediaInfo2Sdp
      { support with
        ice.icePwd := ice.1, ice.iceUfrag := ice.2
        fingerPrint := { type := info.fingerPrint.type, hash }
        candidates := support.candidates ++ [candidate] }

/-- What the server supports of an offer of the user: the offer, the user afterwards, and
the part that is supported.  The user has changed even when it throws. -/
def readOffer (user : UserInfo) (infoJson : Json) :
    UserInfo × Option (RtcMediaInfo × RtcMediaInfo) :=
  let (parsed, user) := user.parseRemoteMediaInfo infoJson
  let info := user.remoteMediaInfo
  match parsed with
  | none => (user, none)
  | some () => (user, (SupportRtcInfo.getSupportRtcMedia info).map fun support => (info, support))

/-- The answer to a `publish` or `subscribe` request. -/
def answerJson (pcid sdp : Bytes) : Json :=
  .obj [(ascii "code", .num 0), (ascii "desc", .str (ascii "ok")), (ascii "pcid", .str pcid),
    (ascii "sdp", .str sdp)]

/-- The answer to an `unpublish` or `unsubscribe` request. -/
def okJson : Json := .obj [(ascii "code", .num 0), (ascii "desc", .str (ascii "ok"))]

/-! ## join -/

/-- The checks of `handle_join`. -/
def checkJoin (r : Room) (data : Json) : Except Refusal Bytes := do
  let uid := getUidByJson data
  if uid = [] then .error (.reject UID_ERROR "uid field does not exist")
  else if (r.users.find? uid).isSome then .error (.reject UID_ERROR "uid has existed")
  else
    let roomIdJson ← orElse (data.find "roomId") (.reject ROOMID_ERROR "roomId does not exist")
    let roomId ← orElse roomIdJson.text? (.reject ROOMID_ERROR "roomId is not string")
    if roomId ≠ r.roomId then .error (.reject ROOMID_ERROR "roomId error")
    else return uid

/-- The answer to a `join` request. -/
def usersJson (r : Room) : Json :=
  .obj [(ascii "users", .arr (r.users.keys.map uidJson))]

/-- `handle_join`. -/
def handleJoin (id : Bytes) (data : Json) (feedback : Connection) (r : Room) : Outcome :=
  match r.checkJoin data with
  | .error refusal => r.refuse id feedback refusal
  | .ok uid =>
    let r := r.setUser uid { uid, roomId := r.roomId, feedback }
    { room := r
      sent := r.notifyUserinToOthers uid ++ [(feedback, .accept id r.usersJson)] ++
        r.notifyOthersPublisherToMe uid feedback }

/-! ## publish and unpublish -/

/-- The checks of `handle_publish`. -/
def checkPublish (r : Room) (data : Json) : Except Refusal (Bytes × UserInfo × Bytes) := do
  let (uid, user) ← r.checkUser data "uid field does not exist" "uid doesn't exist"
  let sdpJson ← orElse (data.find "sdp") (.reject SDP_ERROR "roomId does not exist")
  let sdp ← orElse sdpJson.text? (.reject SDP_ERROR "roomId is not string")
  return (uid, user, sdp)

/-- The session that is made for an offer, with its publishers. -/
def openPublish (r : Room) (uid : Bytes) (support : RtcMediaInfo) :
    RtcBaseSession.Filling × Option Exit :=
  RtcBaseSession.createPublishers libs.uuid support.medias
    { session := { id := libs.uuid r.made, uid, direction := .recv, medias := support.medias }
      made := r.made + 1 }

/-- The part of `handle_publish` behind the offer.  The session is destructed when
something throws. -/
def publishOffer (id uid : Bytes) (user : UserInfo) (feedback : Connection)
    (info support : RtcMediaInfo) (r : Room) : Outcome :=
  if !libs.dtlsMade r.made then { room := { r with made := r.made + 1 }, exit := some .thrown }
  else
    match r.openPublish libs uid support with
    | (st, some e) =>
      { room := { r with
          made := st.made, pid2subscribers := st.session.destruct r.pid2subscribers }
        exit := some e }
    | (st, none) =>
      match answer libs r.made info support with
      | none =>
        { room := { r with
            made := st.made, pid2subscribers := st.session.destruct r.pid2subscribers }
          exit := some .thrown }
      | some sdp =>
        let session := st.session
        let infos := session.getPublishsInformation
        let user := { user with publishSessions := user.publishSessions.assign session.id session }
        let r := { r.setUser uid user with
          made := st.made, announced := r.announced ++ announcements uid session.id infos }
        { room := r
          sent := (feedback, .accept id (answerJson session.id sdp)) ::
            r.notifyPublisherToOthers uid session.id infos }

/-- `handle_publish`. -/
def handlePublish (id : Bytes) (data : Json) (feedback : Connection) (r : Room) : Outcome :=
  match r.checkPublish data with
  | .error refusal => r.refuse id feedback refusal
  | .ok (uid, user, sdp) =>
    match libs.sdpParse sdp with
    | none => { room := r, exit := some .thrown }
    | some infoJson =>
      match readOffer user infoJson with
      | (user, none) => { room := r.setUser uid user, exit := some .thrown }
      | (user, some (info, support)) =>
        publishOffer libs id uid user feedback info support (r.setUser uid user)

/-- The request is not answered when it names no session. -/
def checkUnpublish (r : Room) (data : Json) :
    Except Refusal (Bytes × UserInfo × Bytes × RtcBaseSession) := do
  let (uid, user) ← r.checkUser data "uid field does not exist" "uid doesn't exist"
  let pcid ← orElse (data.textAt "pcid") .silent
  let session ← orElse (user.publishSessions.find? pcid)
    (.reject UID_ERROR "peer connection id doesn't exist")
  return (uid, user, pcid, session)

/-- The loop of `handle_unpublish` and of `handle_unsubscribe`. -/
def erasePublishers (m : Subscribers) (infos : List PublisherInfo) : Subscribers :=
  infos.foldl (fun m info => m.erase info.pid) m

/-- `handle_unpublish`. -/
def handleUnpublish (id : Bytes) (data : Json) (feedback : Connection) (r : Room) : Outcome :=
  match r.checkUnpublish data with
  | .error refusal => r.refuse id feedback refusal
  | .ok (uid, user, pcid, session) =>
    let infos := session.getPublishsInformation
    let user := { user with publishSessions := user.publishSessions.erase pcid }
    let r := { r.setUser uid user with
      pid2subscribers := erasePublishers (session.destruct r.pid2subscribers) infos }
    { room := r
      sent := (feedback, .accept id okJson) :: r.notifyUnpublisherToOthers uid infos }

/-! ## subscribe and unsubscribe -/

/-- What a subscribe request asks for. -/
structure Subscription where
  uid : Bytes
  user : UserInfo
  remoteUid : Bytes
  remoteSession : RtcBaseSession
  publishers : List PublisherInfo
  sdp : Bytes

/-- The checks of `handle_subscribe`. -/
def checkSubscribe (r : Room) (data : Json) : Except Refusal Subscription := do
  let (uid, user) ← r.checkUser data "subscribe uid field does not exist"
    "subscribe uid doesn't exist"
  let remoteUid ← orElse (data.textAt "remoteUid") .throws
  let remoteUser ← orElse (r.users.find? remoteUid)
    (.reject UID_ERROR "publisher uid doesn't exist")
  let remotePcId ← orElse (data.textAt "remotePcId") .throws
  let remoteSession ← orElse (remoteUser.publishSessions.find? remotePcId)
    (.reject UID_ERROR "publisher pcid doesn't exist")
  let publishers ← orElse (data.find "publishers")
    (.reject SUBSCRIBE_JSON_ERROR "publishers doesn't exist")
  let sdpJson ← orElse (data.find "sdp") (.reject SUBSCRIBE_JSON_ERROR "sdp doesn't exist")
  let sdp ← orElse sdpJson.text? (.reject SUBSCRIBE_JSON_ERROR "sdp isn't string")
  return { uid, user, remoteUid, remoteSession, publishers := getPublishersInfoByJson publishers
           sdp }

/-- The publisher for a section is the first of its type.  A section that has none keeps
its own fields, and its publisher has no name. -/
def bindMedia (remote : RtcBaseSession) (publishers : List PublisherInfo) (media : MediaRtcInfo) :
    Option MediaRtcInfo :=
  match publishers.find? fun info => info.mediaType = media.mediaType with
  | none => some media
  | some info =>
    match remote.getPublisher info.mid with
    | none => none
    | some publisher => some
      { media with
        ssrcInfos := publisher.mediaInfo.ssrcInfos, ssrcGroups := publisher.mediaInfo.ssrcGroups
        msid := publisher.mediaInfo.msid, publisherId := publisher.pid }

/-- A subscribe session that is being filled. -/
structure Subscribing where
  session : RtcBaseSession
  subscribers : Subscribers
  made : Nat

/-- The loop that creates the subscribers and inserts them, up to the one that fails. -/
def createSubscribers (remoteUid : Bytes) :
    List MediaRtcInfo → Subscribing → Subscribing × Option Exit
  | [], st => (st, none)
  | media :: rest, st =>
    match st.session.createSubscriber (libs.uuid st.made) remoteUid media with
    | .error e => (st, some e)
    | .ok (session, sub) =>
      match st.subscribers.insertSubscriber media.publisherId sub with
      | .error e => ({ st with session, made := st.made + 1 }, some e)
      | .ok subscribers =>
        createSubscribers remoteUid rest { session, subscribers, made := st.made + 1 }

/-- The session that is made for a subscription, with its subscribers. -/
def openSubscribe (r : Room) (uid remoteUid : Bytes) (medias : List MediaRtcInfo) :
    Subscribing × Option Exit :=
  createSubscribers libs remoteUid medias
    { session := { id := libs.uuid r.made, uid, direction := .send, medias }
      subscribers := r.pid2subscribers, made := r.made + 1 }

/-- The part of `handle_subscribe` behind the sections.  The session is held by the user
before the subscribers are created, so that it stays when something throws. -/
def subscribeMedias (id uid remoteUid : Bytes) (user : UserInfo) (feedback : Connection)
    (info support : RtcMediaInfo) (r : Room) : Outcome :=
  if !libs.dtlsMade r.made then { room := { r with made := r.made + 1 }, exit := some .thrown }
  else
    let (st, exit) := r.openSubscribe libs uid remoteUid support.medias
    let session := st.session
    let user := { user with subscribeSessions := user.subscribeSessions.assign session.id session }
    let after := { r.setUser uid user with made := st.made, pid2subscribers := st.subscribers }
    match exit with
    | some e => { room := after, exit := some e }
    | none =>
      match answer libs r.made info support with
      | none => { room := after, exit := some .thrown }
      | some sdp => { room := after, sent := [(feedback, .accept id (answerJson session.id sdp))] }

/-- `handle_subscribe`. -/
def handleSubscribe (id : Bytes) (data : Json) (feedback : Connection) (r : Room) : Outcome :=
  match r.checkSubscribe data with
  | .error refusal => r.refuse id feedback refusal
  | .ok sub =>
    match (libs.sdpParse sub.sdp).filter libs.dumps with
    | none => { room := r, exit := some .thrown }
    | some infoJson =>
      match readOffer sub.user infoJson with
      | (user, none) => { room := r.setUser sub.uid user, exit := some .thrown }
      | (user, some (info, support)) =>
        let r := r.setUser sub.uid user
        match support.medias.mapM (bindMedia sub.remoteSession sub.publishers) with
        | none =>
          r.refuse id feedback (.reject SUBSCRIBE_JSON_ERROR "publishers doesn't exist")
        | some medias =>
          subscribeMedias libs id sub.uid sub.remoteUid user feedback info
            { support with medias } r

/-- The checks of `handle_unsubscribe`. -/
def checkUnsubscribe (r : Room) (data : Json) :
    Except Refusal (Bytes × UserInfo × Bytes × RtcBaseSession) := do
  let (uid, user) ← r.checkUser data "subscribe uid field does not exist"
    "subscribe uid doesn't exist"
  let pcid ← orElse (data.textAt "pcid") .throws
  let session ← orElse (user.subscribeSessions.find? pcid)
    (.reject UID_ERROR "unsubscribe's pcid doesn't exist")
  return (uid, user, pcid, session)

/-- The session is erased before the list of publishers is looked for.  All subscribers
of the publishers in that list are erased. -/
def handleUnsubscribe (id : Bytes) (data : Json) (feedback : Connection) (r : Room) : Outcome :=
  match r.checkUnsubscribe data with
  | .error refusal => r.refuse id feedback refusal
  | .ok (uid, user, pcid, session) =>
    let user := { user with subscribeSessions := user.subscribeSessions.erase pcid }
    let r := { r.setUser uid user with
      pid2subscribers := session.destruct r.pid2subscribers }
    match data.find "publishers" with
    | none => r.refuse id feedback (.reject SUBSCRIBE_JSON_ERROR "publishers doesn't exist")
    | some publishers =>
      { room := { r with
          pid2subscribers :=
            erasePublishers r.pid2subscribers (getPublishersInfoByJson publishers) }
        sent := [(feedback, .accept id okJson)] }

/-! ## Events -/

/-- `on_request`. -/
def onRequest (id method : Bytes) (data : Json) (feedback : Connection) (r : Room) : Outcome :=
  if method = ascii "join" then handleJoin id data feedback r
  else if method = ascii "publish" then handlePublish libs id data feedback r
  else if method = ascii "unpublish" then handleUnpublish id data feedback r
  else if method = ascii "subscribe" then handleSubscribe libs id data feedback r
  else if method = ascii "unsubscribe" then handleUnsubscribe id data feedback r
  else r.refuse id feedback (.reject METHOD_ERROR "unkown method")

/-- The user that a `close` notification names.  The comparison of the rooms compares
the name in the notification with itself. -/
def checkClose (r : Room) (data : Json) : Except Refusal (Bytes × UserInfo) := do
  let uid ← orElse (data.textAt "uid") .throws
  let _ ← orElse (data.textAt "roomId") .throws
  let user ← orElse (r.users.find? uid) .throws
  return (uid, user)

/-- The user leaves, and its destructor runs. -/
def removeUser (r : Room) (uid : Bytes) (user : UserInfo) : Room :=
  { r with users := r.users.erase uid, pid2subscribers := user.destruct r.pid2subscribers }

/-- `on_notification`. -/
def onNotification (method : Bytes) (data : Json) (r : Room) : Outcome :=
  if method = ascii "close" then
    match r.checkClose data with
    | .error _ => { room := r, exit := some .thrown }
    | .ok (uid, user) =>
      let r := r.removeUser uid user
      { room := r, sent := r.notifyUseroutToOthers uid }
  else { room := r }

/-- What reaches a room. -/
inductive Event where
  | request (id method : Bytes) (data : Json) (feedback : Connection)
  | notification (method : Bytes) (data : Json)

/-- What happens at an event. -/
def handle : Event → Room → Outcome
  | .request id method data feedback, r => onRequest libs id method data feedback r
  | .notification method data, r => onNotification method data r

/-- The room after an event.  The callers catch the exceptions, and a fault is the end. -/
def step (e : Event) (r : Room) : Except Fault Room :=
  match (handle libs e r).exit with
  | some (.fault f) => .error f
  | _ => .ok (handle libs e r).room

/-- The sessions to which `on_rtppacket_publisher2room` forwards a packet of a publisher. -/
def onRtppacketPublisher2room (r : Room) (pid : Bytes) : List Bytes :=
  match r.pid2subscribers.find? pid with
  | none => []
  | some subs => subs.entries.map fun e => e.2.session

end Room

end MediaServer
