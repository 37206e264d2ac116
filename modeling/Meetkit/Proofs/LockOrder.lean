import Meetkit.Model.LockOrder

/-! The backend cannot deadlock. Its locks have an order: an administrator's login over
the closing of an observe connection, that over the tables, the tables over the rooms
and the rooms over the clients. Each function is checked to take its locks in that
order, from the lowest it takes up; a caller only needs to know that bound. -/

namespace Meetkit.LockOrder

open Locking Locking.Code

/-- The order of the locks. -/
def rank : Mutex → ℕ
  | .auth => 0
  | .closeOnce _ => 1
  | .room _ => 3
  | .client _ => 4
  | _ => 2

variable {lo r c target oc : ℕ}

@[simp] theorem above_locked {l : Mutex} {body : Locks} :
    (locked l body).Above rank lo ↔ lo ≤ rank l ∧ body.Above rank (rank l + 1) :=
  Iff.rfl

@[simp] theorem above_rlocked {l : Mutex} {body : Locks} :
    (rlocked l body).Above rank lo ↔ lo ≤ rank l ∧ body.Above rank (rank l + 1) :=
  Iff.rfl

/-! ### Single locks -/

@[simp] theorem above_isObserver (h : lo ≤ 4) : (isObserver c).Above rank lo := by
  simp [isObserver, rank, h]

@[simp] theorem above_send (h : lo ≤ 4) : (send c).Above rank lo := by
  simp [send, rank, h]

@[simp] theorem above_recent (h : lo ≤ 2) : recent.Above rank lo := by
  simp [recent, rank, h]

@[simp] theorem above_broadcastAudit (h : lo ≤ 2) : broadcastAudit.Above rank lo := by
  simp [broadcastAudit, broadcast, rank, h]

@[simp] theorem above_record (h : lo ≤ 2) : record.Above rank lo := by
  simp [record, rank, h]

@[simp] theorem above_notifyStatsChanged (h : lo ≤ 2) : notifyStatsChanged.Above rank lo := by
  simp [notifyStatsChanged, scheduleHubPush, rank, h]

@[simp] theorem above_validateToken : validateToken.Above rank 0 := by
  simp [validateToken, rank]

@[simp] theorem above_sample (h : lo ≤ 2) : sample.Above rank lo := by
  simp [sample, sampleHostCPU, sampleProcessCPU, rank, h]

/-! ### A room's lock over its clients' -/

@[simp] theorem above_size (h : lo ≤ 3) : (size r).Above rank lo := by
  simp [size, rank, h]

@[simp] theorem above_hasNickname (h : lo ≤ 3) : (hasNickname r).Above rank lo := by
  simp [hasNickname, rank, h]

@[simp] theorem above_hasStreamID (h : lo ≤ 3) : (hasStreamID r).Above rank lo := by
  simp [hasStreamID, rank, h]

@[simp] theorem above_hasPushMemberLocked (h : lo ≤ 4) : hasPushMemberLocked.Above rank lo := by
  simp [hasPushMemberLocked, rank, h]

@[simp] theorem above_snapshotPeers (h : lo ≤ 3) : (snapshotPeers r).Above rank lo := by
  simp [snapshotPeers, rank, h]

@[simp] theorem above_isBusinessActive (h : lo ≤ 3) : (isBusinessActive r).Above rank lo := by
  simp [isBusinessActive, rank, h]

@[simp] theorem above_broadcastExcept (h : lo ≤ 3) : (broadcastExcept r).Above rank lo := by
  simp [broadcastExcept, rank, h]

@[simp] theorem above_broadcastToAllExcept (h : lo ≤ 3) :
    (broadcastToAllExcept r).Above rank lo := by
  simp [broadcastToAllExcept, rank, h]

@[simp] theorem above_broadcastChat (h : lo ≤ 3) : (broadcastChat r).Above rank lo := by
  simp [broadcastChat, rank, h]

@[simp] theorem above_targetStreamID (h : lo ≤ 3) : (targetStreamID r target).Above rank lo := by
  simp [targetStreamID, rank, h]
  omega

@[simp] theorem above_observePlayDetail (h : lo ≤ 3) : (observePlayDetail r).Above rank lo := by
  simp [observePlayDetail, clientNickname, streamOwnerNickname, rank, h]

/-! ### The table of rooms over a room -/

@[simp] theorem above_getRoom (h : lo ≤ 2) : getRoom.Above rank lo := by
  simp [getRoom, rank, h]

@[simp] theorem above_removeRoomIfEmpty (h : lo ≤ 2) : (removeRoomIfEmpty r).Above rank lo := by
  simp [removeRoomIfEmpty, rank, h]

@[simp] theorem above_addClient (h : lo ≤ 2) : (addClient r c).Above rank lo := by
  simp (disch := omega) [addClient, realMemberCountLocked, rank]
  omega

@[simp] theorem above_addObserverClient (h : lo ≤ 2) : (addObserverClient r c).Above rank lo := by
  simp (disch := omega) [addObserverClient, joinObserver, rank]
  omega

@[simp] theorem above_dismissObservers (h : lo ≤ 2) : (dismissObservers r).Above rank lo := by
  simp (disch := omega) [dismissObservers, observerLeaves, rank]
  omega

@[simp] theorem above_removeClient (h : lo ≤ 2) : (removeClient r c).Above rank lo := by
  simp (disch := omega) [removeClient, broadcastStreamStopped, rank]
  omega

@[simp] theorem above_leaveRoom (h : lo ≤ 2) : (leaveRoom r c).Above rank lo := by
  simp [leaveRoom, h]

@[simp] theorem above_forceKick (h : lo ≤ 2) : (forceKick r c).Above rank lo := by
  simp (disch := omega) [forceKick, rank]
  omega

@[simp] theorem above_statsSnapshot (h : lo ≤ 2) : statsSnapshot.Above rank lo := by
  simp [statsSnapshot, rank, h]
  omega

/-! ### A client's messages -/

@[simp] theorem above_handleWebRTCOffer (h : lo ≤ 2) :
    (handleWebRTCOffer r c target).Above rank lo := by
  simp (disch := omega) [handleWebRTCOffer, afterPublish, afterPlay, recordPull,
    broadcastStreamStarted, recordObserveAudit, rank]
  omega

@[simp] theorem above_handleRecordControl (h : lo ≤ 2) : (handleRecordControl r c).Above rank lo := by
  simp (disch := omega) [handleRecordControl, resolveLatestRecordURL, lookupHookRecord,
    broadcastRecordState, rank]
  omega

@[simp] theorem above_dispatch (h : lo ≤ 2) : (dispatch r c target).Above rank lo := by
  simp (disch := omega) [dispatch, handleJoin, getOrCreateRoom, handleChat, handleMediaState,
    broadcastMediaState, handleStreamStarted, broadcastStreamStarted, handleStreamStopped,
    broadcastStreamStopped, rank]
  omega

/-! ### Administrators -/

/-- The function of the once runs below it: leaving a room, then the table of
connections. -/
@[simp] theorem above_closeConn (h : lo ≤ 1) : (closeConn oc).Above rank lo := by
  simp [closeConn, unregisterObserve, rank, h]

@[simp] theorem above_leaveAllByToken (h : lo ≤ 1) : leaveAllByToken.Above rank lo := by
  simp [leaveAllByToken, rank, h]
  omega

@[simp] theorem above_login : login.Above rank 0 := by
  simp [login, kickByToken, rank]

@[simp] theorem above_buildDashboardPayload (h : lo ≤ 2) :
    buildDashboardPayload.Above rank lo := by
  simp [buildDashboardPayload, h]

theorem above_requireAdmin {next : Locks} (h : next.Above rank 0) :
    (requireAdmin next).Above rank 0 := by
  simp [requireAdmin, h]

/-- Every goroutine takes its locks in the order. -/
theorem above_code (t : Task) : t.code.Above rank 0 := by
  cases t with
  | newAdmin => simp [Task.code, setKickHandler, setStatsChangeHook, setChangeHook]
  | serveWS c => simp [Task.code, readLoop, cleanup]
  | entryCheck r => simp [Task.code, checkEntry, hasPushMember, rank]
  | recordMp4Hook => simp [Task.code, storeHookRecord]
  | login => simp [Task.code]
  | logout => simp [Task.code, logoutRoute, logoutToken]
  | dashboard => exact above_requireAdmin (by simp)
  | auditLog => exact above_requireAdmin (by simp)
  | clearAuditLog => exact above_requireAdmin (by simp [clear])
  | members =>
    exact above_requireAdmin
      (by simp [memberSnapshot, memberRoomVisible, appendRoomMemberRows, rank])
  | kick r c => simp [Task.code, kickRoute, requireAdmin, kickMember]
  | dissolve r => simp [Task.code, dissolveRoute, requireAdmin, dissolveRoom, rank]
  | dashboardWS => simp [Task.code, LockOrder.dashboardWS, pushSnapshot]
  | observeWS oc =>
    simp [Task.code, LockOrder.observeWS, registerObserve, observeMessage, handleObserveJoin,
      setObserver]
  | debounced => simp [Task.code, LockOrder.debounced, broadcastHub, broadcast]

theorem ops_ordered (g : Goroutine) : Ordered rank [] g.ops :=
  g.follows.ordered_nil (above_code g.task)

/-- However many goroutines run, whatever way each goes and in whatever order they take
their turns: as long as one has something left to do, one can do something, and from
every state they reach those that run can all finish. -/
theorem never_deadlocked (is : List (Turn Goroutine)) :
    ¬Stuck (goroutines.run is) ∧
      ∃ ns : List ℕ, ns.length ≤ work (goroutines.run is) ∧
        ∀ t ∈ goroutines.run (is ++ ns.map .go), t.Done := by
  refine ⟨never_stuck ops_ordered is, ?_⟩
  obtain ⟨ns, hlen, hdone⟩ := drains ops_ordered (run_obeys ops_ordered is)
  refine ⟨ns, hlen, ?_⟩
  rw [Machine.run_append]
  exact hdone

/-- A login in the place of an older one: the kick handler runs while `mu` is held. -/
def kickingLogin : Goroutine where
  task := .login
  ops := [.lock .write .auth, .lock .write .observe, .unlock .write .observe,
    .lock .write .dashboard, .unlock .write .dashboard, .unlock .write .auth]
  follows := .right (.under (.right (.seq (.right (.seq (.under .skip) (.seq .stop .skip)))
    (.seq (.under .skip) .skip))))

/-- A request with a token that does not hold. -/
def refusedRequest : Goroutine where
  task := .members
  ops := [.lock .write .auth, .unlock .write .auth]
  follows := .seq (.under .skip) (.seq (.left .skip) .skip)

/-- The request waits for the login. -/
theorem request_beside_login :
    let is := [.start kickingLogin, .start refusedRequest, .go 0, .go 0, .go 1, .go 1]
    ¬Stuck (goroutines.run is) ∧
      ∃ ns : List ℕ, ns.length ≤ work (goroutines.run is) ∧
        ∀ t ∈ goroutines.run (is ++ ns.map .go), t.Done :=
  never_deadlocked _

end Meetkit.LockOrder
