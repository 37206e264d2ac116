import Meetkit.Proofs.Threads

/-! The critical sections of one goroutine, taken one after the other with nobody in
between, add up to the handler they come from: `handleJoin` and `cleanup` on a
readLoop, `AddObserverClient` and `LeaveRoom` on an observe connection. -/

namespace Meetkit

/-- From the hub and the point it is at, `c`'s readLoop gets to another on its own. -/
def Loop.Alone (shut : UserID → Bool) (c : UserID) (ord : MapOrder) (x y : Hub × Loop) : Prop :=
  ∃ n, (fun z : Hub × Loop => z.2.exec shut z.1 c ord)^[n] x = y

namespace Loop.Alone

variable {shut : UserID → Bool} {c : UserID} {ord : MapOrder} {x y z : Hub × Loop}

theorem refl (x : Hub × Loop) : Alone shut c ord x x := ⟨0, rfl⟩

theorem step (h : Alone shut c ord (x.2.exec shut x.1 c ord) y) : Alone shut c ord x y := by
  obtain ⟨n, hn⟩ := h
  exact ⟨n + 1, hn⟩

theorem trans (hxy : Alone shut c ord x y) (hyz : Alone shut c ord y z) : Alone shut c ord x z := by
  obtain ⟨m, rfl⟩ := hxy
  obtain ⟨n, rfl⟩ := hyz
  exact ⟨n + m, Function.iterate_add_apply _ n m x⟩

theorem run (token : String) {s : Sys} (h : Alone s.shut c ord (s.hub, s.loop c) y) :
    ∃ n, (threads token).runFrom s (List.replicate n (.run c ord)) =
      { s with hub := y.1 }.setLoop c y.2 := by
  obtain ⟨n, hn⟩ := h
  refine ⟨n, ?_⟩
  induction n generalizing s with
  | zero =>
    rw [Function.iterate_zero, id_eq] at hn
    rw [← hn]
    simp [Sys.setLoop]
  | succ n ih =>
    rw [Function.iterate_succ_apply] at hn
    rw [List.replicate_succ, Machine.runFrom_cons]
    have hrun := ih (s := s.step (.run c ord)) (by simpa [Sys.step, Sys.setLoop] using hn)
    refine hrun.trans ?_
    simp [Sys.step, Sys.setLoop]

theorem run_setLoop (token : String) {s : Sys} {l : Loop} (h : Alone s.shut c ord (s.hub, l) y) :
    ∃ n, (threads token).runFrom (s.setLoop c l) (List.replicate n (.run c ord)) =
      { s with hub := y.1 }.setLoop c y.2 := by
  have hloop : Alone (s.setLoop c l).shut c ord ((s.setLoop c l).hub, (s.setLoop c l).loop c) y := by
    rw [Sys.setLoop_same]
    exact h
  obtain ⟨n, hn⟩ := hloop.run token
  refine ⟨n, hn.trans ?_⟩
  simp [Sys.setLoop]

end Loop.Alone

namespace Loop

variable (shut : UserID → Bool) (c : UserID) (ord : MapOrder)

theorem fields_alone (h : Hub) (p : JoinPayload) (mode : RoomMode) : Alone shut c ord (h, .nickname p mode)
    (((h.joinFields c p).getOrCreateRoom p.room mode).1,
      .insert ((h.joinFields c p).getOrCreateRoom p.room mode).2 mode) := by
  refine .step (.step (.step (.step (.step ?_))))
  exact .refl _

theorem insert_alone (h : Hub) (r : RoomRef) (mode : RoomMode) : Alone shut c ord (h, .insert r mode)
    (if (h.admission r c mode).isSome then h.removeRoomIfEmpty r
      else (h.addTo r c).setClient c fun x => { x with room := some r }, .reading) := by
  refine .step ?_
  cases hadm : h.admission r c mode with
  | some e =>
    have he : (Loop.insert r mode).exec shut h c ord = (h, .rejected r) := by
      simp only [exec, hadm]
    rw [he]
    exact .step (.refl _)
  | none =>
    have he : (Loop.insert r mode).exec shut h c ord = (h.addTo r c, .attach r) := by
      simp only [exec, hadm]
    rw [he]
    exact .step (.refl _)

theorem soloRole_alone (h : Hub) (p : JoinPayload) : Alone shut c ord (h, .soloRole p)
    ((h.joinSolo c p).1, if (h.joinSolo c p).2.isSome then .reading else .nickname p .solo) := by
  refine .step ?_
  unfold Hub.joinSolo
  cases hrole : Hub.soloRoleOf? p.soloRole with
  | none =>
    have he : (Loop.soloRole p).exec shut h c ord = (h, .reading) := by simp only [exec, hrole]
    rw [he]
    exact .refl _
  | some role =>
    cases role with
    | play =>
      have he : (Loop.soloRole p).exec shut h c ord = (h.writeSoloRole c .play, .nickname p .solo) := by
        simp only [exec, hrole]
      rw [he]
      exact .refl _
    | push =>
      have he : (Loop.soloRole p).exec shut h c ord = (h.writeSoloRole c .push, .plannedStream p) := by
        simp only [exec, hrole]
      rw [he]
      refine .step ?_
      dsimp only
      cases hplan : Hub.checkPlannedStream p with
      | error e => 
        simp only [exec, hplan]
        exact .refl _
      | ok streamID =>
        simp only [exec, hplan]
        exact .refl _

theorem entering_hub (v : World) (r : RoomRef) (mode : RoomMode) :
    (match v.addClient ord r c mode with
      | (v, some e) => (v.removeRoomIfEmpty r, some e)
      | (v, none) => (v.setClient c fun x => { x with room := some r }, none)).1.hub =
    if (v.hub.admission r c mode).isSome then v.hub.removeRoomIfEmpty r
    else (v.hub.addTo r c).setClient c fun x => { x with room := some r } := by
  unfold World.addClient
  cases v.hub.admission r c mode with
  | some e => rfl
  | none =>
    simp only [World.setClient_hub, World.announceJoin_hub]
    rfl

theorem nickname_alone (w : World) (env : Env) (h : Hub) (p : JoinPayload) (mode : RoomMode) :
    Alone shut c ord (h, .nickname p mode)
      ((match ((w.setHub (h.joinFields c p)).getOrCreateRoom p.room mode).1.addClient env.order
          ((w.setHub (h.joinFields c p)).getOrCreateRoom p.room mode).2 c mode with
        | (v, some e) =>
          (v.removeRoomIfEmpty ((w.setHub (h.joinFields c p)).getOrCreateRoom p.room mode).2, some e)
        | (v, none) =>
          (v.setClient c fun x =>
            { x with room := some ((w.setHub (h.joinFields c p)).getOrCreateRoom p.room mode).2 },
            none)).1.hub, .reading) := by
  rw [entering_hub]
  exact (fields_alone shut c ord h p mode).trans (insert_alone shut c ord _ _ mode)

theorem handleJoin_alone {w : World} {p : Decoded JoinPayload} {q : JoinPayload} {mode : RoomMode}
    (env : Env) (hcheck : w.hub.checkJoin c p = .ok (q, mode)) :
    Alone shut c ord (w.hub, if mode = .solo then .soloRole q else .nickname q mode)
      ((w.handleJoin env c p).1.hub, .reading) := by
  unfold World.handleJoin
  rw [hcheck]
  dsimp only
  by_cases hm : mode = .solo
  · subst hm
    rw [if_pos rfl, if_pos rfl]
    have hsolo := soloRole_alone shut c ord w.hub q
    cases hs : w.hub.joinSolo c q with
    | mk h e =>
      rw [hs] at hsolo
      cases e with
      | some e => exact hsolo
      | none => exact hsolo.trans (nickname_alone shut c ord w env h q .solo)
  · rw [if_neg hm, if_neg hm]
    exact nickname_alone shut c ord w env w.hub q mode

theorem leave_alone (w : World) (r : RoomRef) (o : UserID) (todo : List LeaveStep) :
    Alone shut c ord (w.hub, .dismissing r (.leave o :: todo))
      ((w.observerLeaveRoom o).hub, .dismissing r todo) := by
  refine .step ?_
  unfold World.observerLeaveRoom
  cases hroom : (w.hub.client o).room with
  | none =>
    simp only [exec, LeaveStep.exec, LeaveStep.panics, Bool.false_eq_true, if_false, hroom]
    exact .refl _
  | some t =>
    simp only [exec, LeaveStep.exec, LeaveStep.panics, Bool.false_eq_true, if_false, hroom]
    refine .step ?_
    unfold World.removeObserver
    by_cases ho : o ∈ (w.hub.room t).clients
    · simp only [List.singleton_append, exec, LeaveStep.exec, LeaveStep.panics, Bool.false_eq_true,
        Hub.setClient_room, ho, not_true_eq_false, if_false, World.setClient_hub]
      refine .step ?_
      exact .refl _
    · simp only [List.singleton_append, exec, LeaveStep.exec, LeaveStep.panics, Bool.false_eq_true,
        if_false, Hub.setClient_room, ho, not_false_eq_true, if_true, World.setClient_hub]
      exact .refl _

/-- The dismissal of observers whose queues are open. -/
theorem dismissing_alone (hopen : ∀ u, shut u = false) (r : RoomRef) (message : String) :
    ∀ (os : List UserID) (w : World),
      Alone shut c ord (w.hub, .dismissing r (os.flatMap fun o => [.send o, .leave o]))
        ((os.foldl (fun w o => (w.send o "" (.observeEnded message)).observerLeaveRoom o) w).hub,
          .dismissing r []) := by
  intro os
  induction os with
  | nil => exact fun w => .refl _
  | cons o os ih =>
    intro w
    have hone := leave_alone shut c ord (w.send o "" (.observeEnded message)) r o
      (os.flatMap fun o => [.send o, .leave o])
    rw [World.send_hub] at hone
    refine .step ?_
    simp only [List.flatMap_cons, List.cons_append, exec, LeaveStep.exec, LeaveStep.panics, hopen,
      Bool.false_eq_true, if_false, List.nil_append]
    exact hone.trans (ih _)

theorem activity_alone (hopen : ∀ u, shut u = false) (w : World) (r : RoomRef) :
    Alone shut c ord (w.hub, .activity r)
      (((if w.hub.isBusinessActive r then w
        else w.dismissObservers ord r "业务已结束").removeRoomIfEmpty r).hub, .gone) := by
  refine .step ?_
  by_cases hactive : w.hub.isBusinessActive r = true
  · simp only [exec, hactive, if_true]
    exact .step (.refl _)
  · simp only [exec, hactive, Bool.false_eq_true, if_false]
    refine .step ((dismissing_alone shut c ord hopen r "业务已结束" _ w).trans ?_)
    exact .step (.step (.refl _))

theorem delete_alone (hopen : ∀ u, shut u = false) (w : World) (r : RoomRef) :
    Alone shut c ord (w.hub, .delete r) ((w.removeClient ord r c).hub, .gone) := by
  refine .step ?_
  unfold World.removeClient World.removeObserver
  by_cases hin : c ∈ (w.hub.room r).clients
  · by_cases hob : w.hub.isObserver c = true
    · simp only [exec, hin, hob, not_true_eq_false, if_false, if_true]
      exact .step (.refl _)
    · simp only [exec, hin, hob, not_true_eq_false, if_false, Bool.false_eq_true]
      have hclear : (Loop.clear r).exec shut (w.hub.removeFrom r c) c ord =
          (((w.removeFrom r c).withdraw ord r c).hub, .activity r) := by
        rw [World.withdraw_hub]
        rfl
      refine .step ?_
      rw [hclear, World.notifyStatsChanged_hub]
      exact activity_alone shut c ord hopen _ r
  · simp only [exec, hin, not_false_eq_true, if_true, ite_self]
    exact .refl _

theorem closing_alone (hshut : ∀ u, shut u = false) {w : World}
    (hopen : (w.hub.client c).closed = false) :
    Alone shut c ord (w.hub, .closing) ((w.cleanup ord c).hub, .gone) := by
  refine .step ?_
  unfold World.cleanup
  rw [hopen, if_neg Bool.false_ne_true]
  have hclient : ((w.setClient c fun x => { x with closed := true }).hub.client c).room =
      (w.hub.client c).room := by simp
  simp only [hclient]
  cases hroom : (w.hub.client c).room with
  | none =>
    simp only [exec, hroom]
    exact .refl _
  | some r =>
    simp only [exec, hroom]
    exact delete_alone shut c ord hshut (w.setClient c fun x => { x with closed := true }) r

end Loop

/-- A readLoop that is not interrupted performs `handleJoin`. -/
theorem join_alone {token : String} {s : Sys} {w : World} {c : UserID} (env : Env) (ord : MapOrder)
    (p : Decoded JoinPayload) (hw : w.hub = s.hub) (hl : s.listening c = true)
    (hopen : s.severed c = false) :
    ∃ n, (threads token).runFrom s (.join c p :: List.replicate n (.run c ord)) =
      { s with hub := (w.handleJoin env c p).1.hub } := by
  have hreading : s.loop c = .reading := (Sys.listening_iff.1 hl).1
  have hstart : (threads token).step s (.join c p) = s.startJoin c p := by
    change (if s.listening c && !s.severed c then s.startJoin c p else s) = s.startJoin c p
    rw [hl, hopen]
    rfl
  simp only [Machine.runFrom_cons, hstart]
  cases hcheck : s.hub.checkJoin c p with
  | error e =>
    refine ⟨0, ?_⟩
    have hjoin : (w.handleJoin env c p).1.hub = s.hub := by
      unfold World.handleJoin
      rw [hw, hcheck]
      exact hw
    rw [hjoin]
    simp only [Sys.startJoin, hcheck]
    rfl
  | ok checked =>
    obtain ⟨q, mode⟩ := checked
    have hjoin := Loop.handleJoin_alone s.shut c ord env (hw ▸ hcheck : w.hub.checkJoin c p = _)
    rw [hw] at hjoin
    obtain ⟨n, hn⟩ := hjoin.run_setLoop token
    refine ⟨n, ?_⟩
    simp only [Sys.startJoin, hcheck]
    rw [hn]
    simp [Sys.setLoop, ← hreading]

/-- A readLoop that finds its connection closed and is not interrupted performs `cleanup`,
if the queues of the observe connections are open. -/
theorem cleanup_alone {token : String} {s : Sys} {w : World} {c : UserID} (ord : MapOrder)
    (hw : w.hub = s.hub) (hshut : ∀ u, s.shut u = false) (hl : s.listening c = true)
    (hsevered : s.severed c = true) :
    ∃ n, (threads token).runFrom s (.exit c :: List.replicate n (.run c ord)) =
      { s with hub := (w.cleanup ord c).hub }.setLoop c .gone := by
  have hopen : (w.hub.client c).closed = false := by
    rw [hw]
    exact (Sys.listening_iff.1 hl).2.2
  have hexit : (threads token).step s (.exit c) = s.setLoop c .closing := by
    change (if s.listening c && s.severed c then s.setLoop c .closing else s) = _
    rw [hl, hsevered]
    rfl
  have hclosing := Loop.closing_alone s.shut c ord hshut hopen
  rw [hw] at hclosing
  simp only [Machine.runFrom_cons, hexit]
  exact hclosing.run_setLoop _

/-- An observe connection that is not interrupted adds its observer as
`AddObserverClient` does. -/
theorem watch_alone {w : World} {u : UserID} {username : String} {r : RoomRef} (ord : MapOrder)
    {shut : UserID → Bool} (hopen : shut u = false)
    (hl : w.hub.rooms.lookup (w.hub.room r).id = some r) :
    (fun z : Hub × Watch => z.2.exec shut z.1 u)^[5]
        (w.hub.allocate u (Hub.observerClient u username), .lookup (w.hub.room r).id) =
      (((w.setHub (w.hub.allocate u (Hub.observerClient u username))).addObserver ord
        (w.hub.room r).id u).1.hub, .watching) := by
  let h := w.hub.allocate u (Hub.observerClient u username)
  have hlookup : (Watch.lookup (w.hub.room r).id).exec shut h u = (h, .insert r) := by
    have hfound : h.getRoom (w.hub.room r).id = some r := hl
    simp only [Watch.exec, hfound]
  have hinsert : (Watch.insert r).exec shut h u = (h.addTo r u, .attach r) := by
    have hob : h.isObserver u = true := by
      simp [h, Hub.isObserver, Hub.allocate, Hub.observerClient]
    simp [Watch.exec, hob]
  rw [addObserver_eq hl, World.notifyStatsChanged_hub, observing_hub]
  rw [Function.iterate_succ_apply, Function.iterate_succ_apply, Function.iterate_succ_apply,
    Function.iterate_succ_apply, Function.iterate_one]
  dsimp only
  rw [hlookup]
  dsimp only
  rw [hinsert]
  simp only [Watch.exec, hopen, Bool.false_eq_true, if_false, Hub.setClient_setClient]
  rfl

end Meetkit
