import Meetkit.Lib.Locking

/-! What the backend does with its locks. Every function that takes one is here under
its own name, as the locks it takes, in which order and what it calls while it holds
them; of a branch only that there is one, of a loop only that it makes some turns.
Rooms, clients and observe connections are known by a number, since their locks are.

The early returns of a function leave its later pieces out, so what comes after one
stands in `maybe`. Sends on channels never block (each is in a `select` with a default)
and calls of ZLMediaKit are made without a lock, so neither is here. A send on a closed
channel panics, and neither is that: over every send the locks held are ones that are
given back as the panic unwinds (the room's in a broadcast, `Auth.mu` in `Login`, that of
the once), and the goroutine goes on with what it has deferred, as at its end. -/

namespace Meetkit.LockOrder

open Locking Locking.Code

inductive Mutex
  /-- `adminauth.Auth.mu` -/
  | auth
  /-- `observeConn.closeOnce`: who runs it keeps the others waiting until it is done. -/
  | closeOnce (oc : ℕ)
  /-- `observeSessionManager.mu` -/
  | observe
  /-- `adminDashboardHub.mu` -/
  | dashboard
  /-- `AuditLog.mu` -/
  | audit
  /-- `Hub.mu` -/
  | hub
  /-- `Hub.statsHookMu` -/
  | statsHook
  /-- `Room.mu` -/
  | room (r : ℕ)
  /-- `Client.mu` -/
  | client (c : ℕ)
  /-- `cpuMu` and `procCPUMu` of hoststats -/
  | cpu
  | procCPU
  /-- `hookCache.mu` of the ZLM client -/
  | hookCache
  deriving DecidableEq, Repr

abbrev Locks := Code Mutex

/-- A `sync.Mutex` is a lock that is only ever taken for writing. -/
def locked (l : Mutex) (body : Locks) : Locks := under .write l body

def rlocked (l : Mutex) (body : Locks) : Locks := under .read l body

/-! ### hoststats, the hook cache, the audit log -/

def sampleHostCPU : Locks := maybe (locked .cpu skip)

def sampleProcessCPU : Locks := maybe (locked .procCPU skip)

def sample : Locks := block [sampleHostCPU, sampleProcessCPU]

def storeHookRecord : Locks := locked .hookCache skip

def lookupHookRecord : Locks := rlocked .hookCache skip

def resolveLatestRecordURL : Locks := each fun _ => lookupHookRecord

def recent : Locks := locked .audit skip

/-! ### Clients, the dashboards' pushes -/

def isObserver (c : ℕ) : Locks := rlocked (.client c) skip

def setObserver (c : ℕ) : Locks := locked (.client c) skip

/-- `deliver` of an observer takes no lock. -/
def send (c : ℕ) : Locks := maybe (rlocked (.client c) skip)

def recordPull (c : ℕ) : Locks := locked (.client c) skip

def broadcast : Locks := locked .dashboard skip

def broadcastAudit : Locks := maybe (block [recent, broadcast])

/-- `Record` leaves `mu` before it calls `onChange`. -/
def record : Locks := block [locked .audit skip, maybe broadcastAudit]

def clear : Locks := block [locked .audit skip, maybe broadcastAudit]

/-- The timer's own function is `debounced`, in a goroutine of its own. -/
def scheduleHubPush : Locks := locked .dashboard skip

def setStatsChangeHook : Locks := locked .statsHook skip

/-- `notifyStatsChanged` leaves `statsHookMu` before it calls the hook. -/
def notifyStatsChanged : Locks := block [locked .statsHook skip, maybe scheduleHubPush]

/-- The audit hook is called after `mu` is left. -/
def recordObserveAudit (c : ℕ) : Locks := block [rlocked (.client c) skip, maybe record]

/-! ### Rooms -/

def size (r : ℕ) : Locks := rlocked (.room r) skip

def hasNickname (r : ℕ) : Locks := rlocked (.room r) skip

def hasStreamID (r : ℕ) : Locks := rlocked (.room r) (each fun c => rlocked (.client c) skip)

def clientNickname (r : ℕ) : Locks := rlocked (.room r) skip

def streamOwnerNickname (r : ℕ) : Locks :=
  rlocked (.room r) (each fun c => block [isObserver c, maybe (rlocked (.client c) skip)])

def hasPushMemberLocked : Locks :=
  each fun c => block [isObserver c, maybe (rlocked (.client c) skip)]

def hasPushMember (r : ℕ) : Locks := rlocked (.room r) hasPushMemberLocked

def snapshotPeers (r : ℕ) : Locks :=
  rlocked (.room r) (each fun c => maybe (block [isObserver c, maybe (rlocked (.client c) skip)]))

def realMemberCountLocked : Locks := each isObserver

def isBusinessActive (r : ℕ) : Locks := rlocked (.room r) (each isObserver)

def broadcastExcept (r : ℕ) : Locks :=
  rlocked (.room r) (each fun c => maybe (block [isObserver c, maybe (send c)]))

def broadcastToAllExcept (r : ℕ) : Locks := rlocked (.room r) (each fun c => maybe (send c))

def broadcastChat (r : ℕ) : Locks :=
  rlocked (.room r) (each fun c => block [isObserver c, maybe (send c)])

def broadcastMediaState (r c : ℕ) : Locks :=
  maybe (block [rlocked (.client c) skip, broadcastExcept r])

def broadcastStreamStarted (r : ℕ) : Locks := broadcastToAllExcept r

def broadcastStreamStopped (r : ℕ) : Locks := broadcastToAllExcept r

def targetStreamID (r c : ℕ) : Locks :=
  block [rlocked (.room r) skip, maybe (rlocked (.client c) skip)]

def broadcastRecordState (r : ℕ) : Locks := maybe (broadcastExcept r)

/-! ### Joining and leaving -/

def getOrCreateRoom : Locks := locked .hub skip

/-- The room's size is asked for while the table is locked. -/
def removeRoomIfEmpty (r : ℕ) : Locks := locked .hub (size r)

def getRoom : Locks := rlocked .hub skip

def addClient (r c : ℕ) : Locks :=
  block
    [locked (.room r) (block [maybe realMemberCountLocked, maybe hasPushMemberLocked,
      each isObserver]),
    maybe (block [snapshotPeers r, send c,
      maybe (block [rlocked (.client c) skip, broadcastExcept r]), notifyStatsChanged])]

/-- The room's own `addObserverClient`. -/
def joinObserver (r c : ℕ) : Locks :=
  block [isObserver c,
    maybe (block [locked (.room r) skip, snapshotPeers r, send c, notifyStatsChanged])]

/-- `AddObserverClient` of the hub. -/
def addObserverClient (r c : ℕ) : Locks := block [getRoom, maybe (joinObserver r c)]

/-- `LeaveRoom` and `removeClient` of an observer, which ends where `removeClient` asks
whether the client is one. -/
def observerLeaves (r c : ℕ) : Locks :=
  block [locked (.room r) skip,
    maybe (block [isObserver c, removeRoomIfEmpty r, notifyStatsChanged])]

/-- An observer stays one, so those listed under the lock leave as observers. -/
def dismissObservers (r : ℕ) : Locks :=
  block [rlocked (.room r) (each isObserver),
    each fun c => block [send c, maybe (observerLeaves r c)]]

def removeClient (r c : ℕ) : Locks :=
  block [locked (.room r) skip,
    maybe (block [isObserver c,
      either (block [removeRoomIfEmpty r, notifyStatsChanged])
        (block [locked (.client c) skip, each fun _ => broadcastStreamStopped r,
          maybe (broadcastExcept r), isBusinessActive r, maybe (dismissObservers r),
          removeRoomIfEmpty r, notifyStatsChanged])])]

def leaveRoom (r c : ℕ) : Locks := maybe (removeClient r c)

def cleanup (r c : ℕ) : Locks := block [locked (.client c) skip, maybe (removeClient r c)]

def forceKick (r c : ℕ) : Locks :=
  block [rlocked (.client c) skip, either (send c) (leaveRoom r c)]

/-! ### The hub -/

/-- The table is left before the rooms are visited, each room before the next. -/
def statsSnapshot : Locks :=
  block [rlocked .hub skip,
    each fun r => rlocked (.room r) (each fun c => rlocked (.client c) skip)]

def memberRoomVisible (r : ℕ) : Locks :=
  rlocked (.room r) (each fun c => block [isObserver c, maybe (rlocked (.client c) skip)])

def appendRoomMemberRows (r : ℕ) : Locks :=
  rlocked (.room r) (each fun c => block [isObserver c, maybe (rlocked (.client c) skip)])

def memberSnapshot : Locks :=
  block [rlocked .hub skip,
    each fun r => block [memberRoomVisible r, maybe (appendRoomMemberRows r)]]

def kickMember (r c : ℕ) : Locks :=
  block [getRoom,
    maybe (block [rlocked (.room r) skip, maybe (block [isObserver c, maybe (forceKick r c)])])]

/-- The victims are listed under the room's lock and kicked after it. -/
def dissolveRoom (r : ℕ) : Locks :=
  block [getRoom, maybe (block [rlocked (.room r) (each isObserver), each (forceKick r)])]

def checkEntry (r : ℕ) : Locks :=
  block [getRoom, maybe (size r), maybe (hasPushMember r), maybe (hasNickname r),
    maybe (hasStreamID r), maybe (hasNickname r)]

/-! ### The handlers of a client's messages -/

def handleJoin (r c : ℕ) : Locks :=
  maybe (block [maybe (locked (.client c) skip), maybe (locked (.client c) skip), getOrCreateRoom,
    addClient r c, maybe (removeRoomIfEmpty r)])

def handleChat (r c : ℕ) : Locks := block [isObserver c, maybe (broadcastChat r)]

def handleMediaState (r c : ℕ) : Locks :=
  block [isObserver c, maybe (block [locked (.client c) skip, broadcastMediaState r c])]

def observePlayDetail (r : ℕ) : Locks := oneOf [clientNickname r, streamOwnerNickname r]

/-- What `publish` and `publish-solo` do once ZLM has answered, and what `play` and
`play-solo` do. -/
def afterPublish (r c : ℕ) : Locks :=
  block [locked (.client c) skip, broadcastStreamStarted r, notifyStatsChanged]

def afterPlay (r c : ℕ) : Locks :=
  block [recordPull c, notifyStatsChanged, isObserver c,
    maybe (block [observePlayDetail r, recordObserveAudit c])]

/-- `target` is the client whose stream is asked for. -/
def handleWebRTCOffer (r c target : ℕ) : Locks :=
  maybe (block [isObserver c,
    maybe (block [oneOf [isObserver c, targetStreamID r target, hasStreamID r],
      maybe (block [either (afterPublish r c) (afterPlay r c), send c])])])

def handleStreamStarted (r c : ℕ) : Locks :=
  block [isObserver c, maybe (block [locked (.client c) skip, broadcastStreamStarted r])]

def handleStreamStopped (r c : ℕ) : Locks :=
  block [isObserver c,
    maybe (block [locked (.client c) skip,
      maybe (block [broadcastStreamStopped r, notifyStatsChanged])])]

def handleRecordControl (r c : ℕ) : Locks :=
  block [isObserver c,
    maybe (block [rlocked (.client c) skip,
      maybe (block [locked (.client c) skip, maybe resolveLatestRecordURL, send c,
        broadcastRecordState r, notifyStatsChanged])])]

def dispatch (r c target : ℕ) : Locks :=
  oneOf [handleJoin r c, handleChat r c, handleMediaState r c, handleWebRTCOffer r c target,
    handleStreamStarted r c, handleStreamStopped r c, handleRecordControl r c]

/-- `send` answers what `dispatch` refuses. -/
def readLoop (c : ℕ) : Locks :=
  block [each fun r => each fun target => block [dispatch r c target, maybe (send c)],
    each fun r => cleanup r c]

/-! ### Administrators -/

def validateToken : Locks := locked .auth skip

def logoutToken : Locks := locked .auth skip

def registerObserve : Locks := locked .observe skip

def unregisterObserve : Locks := locked .observe skip

/-- `closeOnce.Do` runs its function under the once's own lock, if it is the first. -/
def closeConn (oc : ℕ) : Locks :=
  maybe (locked (.closeOnce oc)
    (maybe (block [each fun r => each fun c => leaveRoom r c, unregisterObserve])))

def leaveAllByToken : Locks := block [locked .observe skip, each closeConn]

def kickByToken : Locks := block [maybe leaveAllByToken, locked .dashboard skip]

/-- The kick handler runs while `mu` is held. -/
def login : Locks := locked .auth (maybe kickByToken)

def setKickHandler : Locks := locked .auth skip

def setChangeHook : Locks := locked .audit skip

def buildDashboardPayload : Locks := block [statsSnapshot, sample, maybe recent]

def broadcastHub : Locks := block [buildDashboardPayload, maybe broadcast]

/-- What `time.AfterFunc` runs. -/
def debounced : Locks := block [locked .dashboard skip, broadcastHub]

def pushSnapshot : Locks := buildDashboardPayload

/-- A dashboard's WebSocket, from `handleWS` to `close`. -/
def dashboardWS : Locks :=
  block [validateToken, maybe (block [locked .dashboard skip, pushSnapshot,
    each fun _ => maybe pushSnapshot, locked .dashboard skip])]

def handleObserveJoin (r c : ℕ) : Locks :=
  maybe (block [getRoom, maybe (block [statsSnapshot, maybe statsSnapshot,
    maybe (block [setObserver c, addObserverClient r c])])])

/-- What the observe connection does with one message. -/
def observeMessage (r c target : ℕ) : Locks :=
  oneOf [handleObserveJoin r c, leaveRoom r c, record, dispatch r c target]

/-- An observe connection, from `handleWS` to `closeConn`. -/
def observeWS (oc : ℕ) : Locks :=
  block [validateToken, maybe (block [registerObserve,
    each fun r => each fun c => each fun target => observeMessage r c target, closeConn oc])]

def requireAdmin (next : Locks) : Locks := block [validateToken, maybe next]

def logoutRoute : Locks :=
  block [validateToken, maybe (block [leaveAllByToken, logoutToken, maybe record])]

def kickRoute (r c : ℕ) : Locks :=
  requireAdmin (block [validateToken, maybe (block [kickMember r c, maybe record])])

def dissolveRoute (r : ℕ) : Locks :=
  requireAdmin (block [validateToken, maybe (block [dissolveRoom r, maybe record])])

/-- Everything that runs in a goroutine of its own and takes a lock. -/
inductive Task
  | newAdmin
  | serveWS (c : ℕ)
  | entryCheck (r : ℕ)
  | recordMp4Hook
  | login
  | logout
  | dashboard
  | auditLog
  | clearAuditLog
  | members
  | kick (r c : ℕ)
  | dissolve (r : ℕ)
  | dashboardWS
  | observeWS (oc : ℕ)
  | debounced
  deriving DecidableEq, Repr

def Task.code : Task → Locks
  | newAdmin => block [setKickHandler, setStatsChangeHook, setChangeHook]
  | serveWS c => readLoop c
  | entryCheck r => maybe (checkEntry r)
  | recordMp4Hook => maybe storeHookRecord
  | login => maybe LockOrder.login
  | logout => maybe logoutRoute
  | dashboard => requireAdmin (maybe buildDashboardPayload)
  | auditLog => requireAdmin (maybe recent)
  | clearAuditLog => requireAdmin (maybe clear)
  | members => requireAdmin (maybe memberSnapshot)
  | kick r c => maybe (kickRoute r c)
  | dissolve r => maybe (dissolveRoute r)
  | dashboardWS => maybe LockOrder.dashboardWS
  | observeWS oc => maybe (LockOrder.observeWS oc)
  | debounced => LockOrder.debounced

/-- A goroutine: what it runs, and which way it goes through it. -/
structure Goroutine where
  task : Task
  ops : List (Op Mutex)
  follows : task.code.Runs ops

/-- The backend: goroutines start whenever they like and take turns in any order. -/
def goroutines : Machine (List (Thread Mutex)) (Turn Goroutine) := threads Goroutine.ops

end Meetkit.LockOrder
