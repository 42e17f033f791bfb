import Mathlib.Data.String.Basic
import MetaCommon.Lib.FlatMap
import MetaCommon.Lib.Runs

/-!
# Event subscriptions and their streams

A subscription is kept in the manager's map and, as a copy, in the store, from which the file is
written. One of a server-sent event stream also holds its connection. Either side may end first: the
connection by an error or a close, the subscription by a DELETE.
-/

namespace MetaCommon.EventService

/-! ### Subscriptions and their JSON -/

def subscriptionTypeSSE : String := "SSE"

def maxNoOfSubscriptions : ℕ := 20

def maxNoOfSSESubscriptions : ℕ := 10

structure UserSubscription where
  subscriptionType : String
  retryPolicy : String
  state : String
  owner : String
deriving DecidableEq

/-- The connection of a stream by its number, which no other connection gets. -/
structure Subscription extends UserSubscription where
  subId : String
  sseConn : Option ℕ
deriving DecidableEq

/-- The members of the JSON object of a subscription; a value that is not a string is none. -/
abbrev JsonSubscription := List (String × Option String)

namespace UserSubscription

def toJson (s : UserSubscription) : JsonSubscription :=
  [("DeliveryRetryPolicy", some s.retryPolicy), ("SubscriptionType", some s.subscriptionType),
    ("State", some s.state), ("Owner", some s.owner)]

/-- One element of the loop in `fromJson`: unknown names and values that are not strings are passed
over. -/
def readElement (s : UserSubscription) (element : String × Option String) : UserSubscription :=
  match element.2 with
  | none => s
  | some value =>
    if element.1 = "DeliveryRetryPolicy" then { s with retryPolicy := value }
    else if element.1 = "SubscriptionType" then { s with subscriptionType := value }
    else if element.1 = "State" then { s with state := value }
    else if element.1 = "Owner" then { s with owner := value }
    else s

def fromJson (j : JsonSubscription) : UserSubscription := j.foldl readElement ⟨"", "", "", ""⟩

end UserSubscription

/-! ### The manager -/

structure Manager where
  subscriptionsMap : FlatMap String Subscription
  subscriptionsConfigMap : FlatMap String UserSubscription
  file : FlatMap String JsonSubscription

namespace Manager

variable (m : Manager)

/-- The configuration file is written from the store. Subscriptions of streams are left out. -/
def persistSubscriptionData : Manager :=
  { m with
    file := (m.subscriptionsConfigMap.filter fun e =>
      e.2.subscriptionType ≠ subscriptionTypeSSE).map fun _ s => s.toJson }

/-- `initConfig` of a new process, after the store has been read from the file. -/
def initConfig : Manager :=
  let store := m.file.map fun _ j => UserSubscription.fromJson j
  { m with
    subscriptionsMap := store.map fun id s => { s with subId := id, sseConn := none }
    subscriptionsConfigMap := store }

/-- The random number `dist` is none if the generator fails, and refused if it is the number of
another subscription. -/
def addSubscription (dist : Option String) (subValue : Subscription) (updateFile : Bool) :
    Option String × Manager :=
  match dist with
  | none => (none, m)
  | some id =>
    if id ∈ m.subscriptionsMap.keys then (none, m)
    else
      let m := { m with
        subscriptionsMap := m.subscriptionsMap.assign id { subValue with subId := id }
        subscriptionsConfigMap := m.subscriptionsConfigMap.insert id subValue.toUserSubscription }
      (some id, if updateFile then m.persistSubscriptionData else m)

def deleteSubscription (id : String) : Manager :=
  if id ∈ m.subscriptionsMap.keys then
    let m := { m with
      subscriptionsMap := m.subscriptionsMap.erase id
      subscriptionsConfigMap := m.subscriptionsConfigMap.erase id }
    m.persistSubscriptionData
  else m

def getNumberOfSubscriptions : ℕ := m.subscriptionsMap.entries.length

def getNumberOfSSESubscriptions : ℕ :=
  m.subscriptionsMap.entries.countP fun e => e.2.subscriptionType = subscriptionTypeSSE

/-- The first subscription of a stream that has the connection is deleted by its own number. -/
def deleteSseSubscription (conn : ℕ) : Manager :=
  match m.subscriptionsMap.entries.find? fun e =>
    e.2.subscriptionType = subscriptionTypeSSE ∧ e.2.sseConn = some conn with
  | some e => m.deleteSubscription e.2.subId
  | none => m

end Manager

/-! ### Requests -/

/-- `privileges` is what `getUserPrivileges` makes of the session. -/
structure Session where
  username : String
  privileges : List String
deriving DecidableEq

/-- None if a session that is not there has been dereferenced. -/
def isConfigureManagerOrSelf (session : Option Session) (subValue : Subscription) : Option Bool :=
  session.map fun session =>
    if "ConfigureManager" ∈ session.privileges then true
    else if session.username = "" then false
    else if subValue.owner ≠ session.username then false
    else true

/-- The responses of the handlers. `refused` stands for those of the checks of a request that are
not modelled. -/
inductive Response
  | ok
  | refused
  | noValidSession
  | notFound
  | insufficientPrivilege
  | eventSubscriptionLimitExceeded
  | internalError
deriving DecidableEq

/-- The connection of a stream has not been made, is being refused, is the one of a stream, or has
been closed. -/
inductive Phase
  | absent
  | refused
  | accepted
  | closed
deriving DecidableEq

/-- How a subscription has been created. -/
inductive Origin
  | post
  | sse
deriving DecidableEq

/-- The manager with the connections, and the user who has created the subscription of a number. -/
structure Service where
  manager : Manager
  phase : ℕ → Phase
  creator : String → Option (String × Origin)

/-- `valid` is whether the checks of a request pass that are not modelled: of the body and of the
query with the filter of a stream. Those that a POST makes before it looks at the session are
`readable`. `ec` is whether a write has failed. -/
inductive Event
  | post (session : Option Session) (readable valid : Bool) (retryPolicy : String)
    (dist : Option String)
  | openStream (conn : ℕ) (session : Option Session) (valid : Bool) (dist : Option String)
  | headerWritten (conn : ℕ) (ec : Bool)
  | responseWritten (conn : ℕ) (ec : Bool)
  | connectionError (conn : ℕ)
  | patch (session : Option Session) (id : String) (valid : Bool) (retryPolicy : Option String)
  | delete (session : Option Session) (id : String)
  | restart
deriving DecidableEq

namespace Service

variable (s : Service)

def setPhase (conn : ℕ) (p : Phase) : Service := { s with phase := Function.update s.phase conn p }

def created (id : String) (username : String) (origin : Origin) : Service :=
  { s with creator := Function.update s.creator id (some (username, origin)) }

/-- `ConnectionImpl::close` with the close handler. -/
def close (conn : ℕ) : Service :=
  { s.setPhase conn .closed with manager := s.manager.deleteSseSubscription conn }

def post (session : Option Session) (readable valid : Bool) (retryPolicy : String)
    (dist : Option String) : Response × Service :=
  if readable = false then (.refused, s)
  else match session with
  | none => (.noValidSession, s)
  | some session =>
    if session.username = "" then (.noValidSession, s)
    else if valid = false then (.refused, s)
    else
      let subValue := ⟨⟨"RedfishEvent", retryPolicy, "Enabled", session.username⟩, "", none⟩
      match s.manager.addSubscription dist subValue true with
      | (some id, manager) => (.ok, { s with manager }.created id session.username .post)
      | (none, _) => (.internalError, s)

/-- `createSubscription`. Any response but ok is written to the connection, and ends it. -/
def createSubscription (conn : ℕ) (session : Option Session) (valid : Bool)
    (dist : Option String) : Option (Response × Service) :=
  if s.manager.getNumberOfSubscriptions ≥ maxNoOfSubscriptions ∨
      s.manager.getNumberOfSSESubscriptions ≥ maxNoOfSSESubscriptions then
    some (.eventSubscriptionLimitExceeded, s)
  else if valid = false then some (.refused, s)
  else
    -- The owner is read from the session without a check.
    session.map fun session =>
      let subValue :=
        ⟨⟨subscriptionTypeSSE, "TerminateAfterRetries", "", session.username⟩, "", some conn⟩
      match s.manager.addSubscription dist subValue false with
      | (some id, manager) => (.ok, { s with manager }.created id session.username .sse)
      | (none, _) => (.internalError, s)

/-- `ConnectionImpl::start` -/
def start (conn : ℕ) (session : Option Session) (valid : Bool) (dist : Option String) :
    Option Service :=
  (s.createSubscription conn session valid dist).map fun (res, s) =>
    s.setPhase conn (if res = .ok then .accepted else .refused)

/-- What PATCH and DELETE do with a subscription is done if there is one and the rights suffice. -/
def authorized (session : Option Session) (id : String) (effect : Response × Service) :
    Option (Response × Service) :=
  match s.manager.subscriptionsMap.lookup id with
  | none => some (.notFound, s)
  | some subValue =>
    (isConfigureManagerOrSelf session subValue).map fun allowed =>
      if !allowed then (.insufficientPrivilege, s) else effect

/-- The subscription in the map is changed through its pointer; the store keeps its copy. -/
def setRetryPolicy (id : String) (retryPolicy : String) : Manager :=
  { s.manager with
    subscriptionsMap := s.manager.subscriptionsMap.map fun id' sub =>
      if id' = id then { sub with retryPolicy } else sub }

def patch (session : Option Session) (id : String) (valid : Bool) (retryPolicy : Option String) :
    Option (Response × Service) :=
  s.authorized session id <|
    if valid = false then (.refused, s)
    else
      let manager := match retryPolicy with
        | some policy => s.setRetryPolicy id policy
        | none => s.manager
      (.ok, { s with manager := manager.persistSubscriptionData })

def delete (session : Option Session) (id : String) : Option (Response × Service) :=
  s.authorized session id (.ok, { s with manager := s.manager.deleteSubscription id })

/-- A new process has no connections. -/
def restart : Service :=
  { s with
    manager := s.manager.initConfig
    phase := fun conn => if s.phase conn = .absent then .absent else .closed }

/-- Events of a connection that is not in the phase for them do not occur. -/
def step : Event → Option Service
  | .post session readable valid retryPolicy dist =>
    some (s.post session readable valid retryPolicy dist).2
  | .openStream conn session valid dist =>
    if s.phase conn = .absent then s.start conn session valid dist else some s
  | .headerWritten conn ec =>
    some (if s.phase conn = .accepted ∧ ec = true then s.close conn else s)
  | .responseWritten conn ec =>
    if s.phase conn = .refused then
      -- After an error the connection is released without its close handler.
      some (if ec then s.setPhase conn .closed else s.close conn)
    else some s
  | .connectionError conn => some (if s.phase conn = .accepted then s.close conn else s)
  | .patch session id valid retryPolicy => (s.patch session id valid retryPolicy).map Prod.snd
  | .delete session id => (s.delete session id).map Prod.snd
  | .restart => some s.restart

end Service

end MetaCommon.EventService
