import Mathlib.Data.List.Basic
import Mathlib.Data.List.Nodup
import Mathlib.Tactic.Common

/-!
# Redfish and IPMI sessions

The collection lists the sessions of the store and then the last element of the path of every IPMI
session object. A single session is looked up in the store by its id, and otherwise the first IPMI
session object is taken whose path ends with the id, which may be in the middle of its last element.
-/

namespace MetaCommon.RedfishSessions

abbrev Text := List Char

structure UserSession where
  sessionToken : Text
  uniqueId : Text
  username : Text
  clientIp : Text
  deriving DecidableEq

/-- The store of the Redfish sessions, by what it holds and does. -/
class SessionStore (σ : Type) where
  sessions : σ → List UserSession
  getUniqueIds : σ → List Text
  mem_getUniqueIds : ∀ {store uid},
    uid ∈ getUniqueIds store ↔ ∃ session ∈ sessions store, session.uniqueId = uid
  getSessionByUid : σ → Text → Option UserSession
  getSessionByUid_of_some : ∀ {store uid session}, getSessionByUid store uid = some session →
    session ∈ sessions store ∧ session.uniqueId = uid
  getSessionByUid_of_none : ∀ {store uid}, getSessionByUid store uid = none →
    ∀ session ∈ sessions store, session.uniqueId ≠ uid
  removeSession : σ → UserSession → σ
  /-- Removing a session removes no other. -/
  mem_removeSession : ∀ {store session}, session ∈ sessions store →
    ∀ s, s ∈ sessions (removeSession store session) ↔ s ∈ sessions store ∧ s ≠ session

export SessionStore (sessions getUniqueIds mem_getUniqueIds getSessionByUid
  getSessionByUid_of_some getSessionByUid_of_none removeSession mem_removeSession)

/-- The sessions by their tokens. -/
structure TokenMap where
  authTokens : List UserSession
  distinct : (authTokens.map UserSession.sessionToken).Nodup

instance : SessionStore TokenMap where
  sessions := TokenMap.authTokens
  getUniqueIds store := store.authTokens.map UserSession.uniqueId
  mem_getUniqueIds := List.mem_map
  getSessionByUid store uid := store.authTokens.find? fun s => s.uniqueId = uid
  getSessionByUid_of_some h := ⟨List.mem_of_find?_eq_some h, by simpa using List.find?_some h⟩
  getSessionByUid_of_none h session hmem := by simpa using List.find?_eq_none.mp h session hmem
  removeSession store session :=
    { authTokens := store.authTokens.filter fun s => s.sessionToken ≠ session.sessionToken
      distinct := store.distinct.sublist (List.filter_sublist.map _) }
  mem_removeSession {store session} h s := by
    have hinj : s ∈ store.authTokens → (s.sessionToken = session.sessionToken ↔ s = session) :=
      fun hs => ⟨fun htoken => List.inj_on_of_nodup_map store.distinct hs h htoken,
        congrArg UserSession.sessionToken⟩
    rw [List.mem_filter, decide_eq_true_iff]
    exact and_congr_right fun hs => not_congr (hinj hs)

variable {σ : Type}

inductive Variant
  | monostate
  | string (value : Text)
  | uint32 (value : UInt32)

/-- What the IPMI daemon and the mapper answer: the objects with the session interface, each with
the services that have it, and the properties of an object. -/
structure Bus where
  subtree : Option (List (Text × List (Text × List Text)))
  getAll : Text → Text → Option (List (Text × Variant))

def Bus.getSubTreePaths (bus : Bus) : Option (List Text) := bus.subtree.map fun o => o.map Prod.fst

inductive Message
  | internalError
  | insufficientPrivilege
  | actionNotSupported (action : String)
  | resourceNotFound (type : String) (name : Text)
  deriving DecidableEq

/-- The properties of a session that differ between sessions. -/
structure SessionObject where
  id : Text
  userName : Text
  clientOriginIPAddress : Text
  deriving DecidableEq

/-- Where the properties of an answer come from. -/
inductive Described
  | redfish (session : UserSession)
  | ipmi (path : Text)
  deriving DecidableEq

inductive GetReply
  | session (described : Described) (object : SessionObject)
  | error (message : Message)
  deriving DecidableEq

def fillSessionObject (session : UserSession) : SessionObject where
  id := session.uniqueId
  userName := session.username
  clientOriginIPAddress := session.clientIp

/-- `inet_ntoa`: the bytes of the address as they are in memory. -/
def inetNtoa (address : UInt32) : Text :=
  let byte (i : UInt32) := (toString ((address >>> i) &&& 0xff).toNat).toList
  byte 0 ++ '.' :: byte 8 ++ '.' :: byte 16 ++ '.' :: byte 24

def property (properties : List (Text × Variant)) (name : String) : Option Variant :=
  (properties.find? fun p => p.1 = name.toList).map Prod.snd

def unpackProperties (properties : List (Text × Variant)) : Option (Text × UInt32) :=
  match property properties "Username", property properties "RemoteIPAddr" with
  | some (.string userName), some (.uint32 remoteIpAddr) => some (userName, remoteIpAddr)
  | _, _ => none

def getIpmiSession (bus : Bus) (sessionId service path : Text) : GetReply :=
  if service = [] then .error .internalError
  else
    match bus.getAll service path with
    | none => .error .internalError
    | some properties =>
      match unpackProperties properties with
      | none => .error .internalError
      | some (userName, remoteIpAddr) =>
        .session (.ipmi path) ⟨sessionId, userName, inetNtoa remoteIpAddr⟩

/-- What the loop over the subtree stops at. -/
def Matches (sessionId : Text) (o : Text × List (Text × List Text)) : Prop :=
  o.1 ≠ [] ∧ o.2 ≠ [] ∧ sessionId <:+ o.1

instance (sessionId : Text) : DecidablePred (Matches sessionId) := fun o =>
  inferInstanceAs (Decidable (o.1 ≠ [] ∧ o.2 ≠ [] ∧ sessionId <:+ o.1))

def handleSessionGet [SessionStore σ] (store : σ) (bus : Bus) (sessionId : Text) : GetReply :=
  match getSessionByUid store sessionId with
  | some session => .session (.redfish session) (fillSessionObject session)
  | none =>
    match bus.subtree with
    | none => .error .internalError
    | some subtree =>
      if subtree = [] then .error (.resourceNotFound "Session" sessionId)
      else
        match subtree.find? fun o => Matches sessionId o with
        | some (path, (service, _) :: _) => getIpmiSession bus sessionId service path
        | _ => .error (.resourceNotFound "Session" sessionId)

/-- The answer to a DELETE; `untouched` is the response as it has been created. -/
inductive DeleteReply
  | untouched
  | success
  | error (message : Message)
  deriving DecidableEq

/-- `none` where the session of the request is used and there is none. -/
def handleSessionDelete [SessionStore σ] (store : σ) (bus : Bus)
    (getUserPrivileges : UserSession → List String) (reqSession : Option UserSession)
    (sessionId : Text) : Option (σ × DeleteReply) :=
  match getSessionByUid store sessionId with
  | some session =>
    match reqSession with
    | none => none
    | some requester =>
      if session.username ≠ requester.username ∧ "ConfigureUsers" ∉ getUserPrivileges requester then
        some (store, .error .insufficientPrivilege)
      else some (removeSession store session, .success)
  | none =>
    match bus.getSubTreePaths with
    | none => some (store, .error .internalError)
    | some ifaceList =>
      if ifaceList = [] then some (store, .untouched)
      else if ∃ path ∈ ifaceList, sessionId <:+ path then
        some (store, .error (.actionNotSupported "deleting IPMI session from Redfish"))
      else some (store, .error (.resourceNotFound "Session" sessionId))

/-- `std::filesystem::path::filename` -/
def filename (path : Text) : Text := (path.reverse.takeWhile (· ≠ '/')).reverse

structure Collection where
  members : List Text
  count : ℕ
  error : Option Message

def sessionUri (sessionId : Text) : Text :=
  "/redfish/v1/SessionService/Sessions/".toList ++ sessionId

def handleSessionCollectionGet [SessionStore σ] (store : σ) (bus : Bus) : Collection :=
  let members := (getUniqueIds store).map sessionUri
  match bus.getSubTreePaths with
  | none => ⟨members, members.length, some .internalError⟩
  | some ifaceList =>
    if ifaceList = [] then ⟨members, members.length, none⟩
    else
      let ids := (ifaceList.map filename).filter fun id => id ≠ [] ∧ id ≠ ['0']
      let members := members ++ ids.map sessionUri
      ⟨members, members.length, none⟩

end MetaCommon.RedfishSessions
