import Meetkit.Proofs.Ledger

/-! What the operations put into the log. It only grows: `Emits` passes through every
operation on a world and says besides whom the new messages answer. -/

namespace Meetkit

open World

/-- `v` has the events of `w` and then more. -/
def World.Grows (w v : World) : Prop := w.log <+: v.log

/-- The new messages of `v` that answer requests are for clients that `K` holds of. -/
def World.Emits (K : UserID → Prop) (w v : World) : Prop :=
  ∃ es, v.log = w.log ++ es ∧ ∀ d q m, .sent d q m ∈ es → q = "" ∨ K d

namespace World.Emits

variable {K : UserID → Prop} {w v u : World} {d : UserID} {r : RoomRef} {ord : MapOrder}
  {m : ServerMsg} {q : String} {kind : Kind} {stream : StreamID}

theorem refl : Emits K w w := ⟨[], (List.append_nil _).symm, fun _ _ _ hm => absurd hm List.not_mem_nil⟩

theorem trans (h1 : Emits K w v) (h2 : Emits K v u) : Emits K w u := by
  obtain ⟨es, hes, hK⟩ := h1
  obtain ⟨fs, hfs, hK'⟩ := h2
  refine ⟨es ++ fs, by rw [hfs, hes, List.append_assoc], fun d q m hm => ?_⟩
  exact (List.mem_append.1 hm).elim (hK d q m) (hK' d q m)

theorem grows (h : Emits K w v) : Grows w v := by
  obtain ⟨es, hes, -⟩ := h
  exact ⟨es, hes.symm⟩

theorem setHub (h : Emits K w v) {hub : Hub} : Emits K w (v.setHub hub) := h

theorem setClient (h : Emits K w v) {f : Client → Client} : Emits K w (v.setClient d f) := h

theorem removeFrom (h : Emits K w v) : Emits K w (v.removeFrom r d) := h

theorem setConn (h : Emits K w v) {k : ConnID} {f : ObserveConn → ObserveConn} :
    Emits K w (v.setConn k f) := h

theorem removeRoomIfEmpty (h : Emits K w v) : Emits K w (v.removeRoomIfEmpty r) := h

theorem emit (h : Emits K w v) {es : List Event} (hes : ∀ d q m, .sent d q m ∈ es → q = "" ∨ K d) :
    Emits K w (v.emit es) :=
  h.trans ⟨es, rfl, hes⟩

theorem send (h : Emits K w v) (hd : q = "" ∨ K d) : Emits K w (v.send d q m) := by
  unfold World.send
  split_ifs
  · exact h
  · refine h.emit fun d' q' m' hm => ?_
    obtain ⟨rfl, rfl, rfl⟩ : d' = d ∧ q' = q ∧ m' = m := by simpa using hm
    exact hd

theorem sendAll (h : Emits K w v) {ids : List UserID} : Emits K w (v.sendAll ids m) := by
  refine h.emit fun d q m' hm => Or.inl ?_
  obtain ⟨d', -, heq⟩ := List.mem_map.1 hm
  injection heq with _ hq
  exact hq.symm

theorem broadcastExcept (h : Emits K w v) : Emits K w (v.broadcastExcept ord r d m) := h.sendAll

theorem broadcastStreamStarted (h : Emits K w v) :
    Emits K w (v.broadcastStreamStarted ord r d kind stream) := h.sendAll

theorem broadcastStreamStopped (h : Emits K w v) :
    Emits K w (v.broadcastStreamStopped ord r d kind stream) := h.sendAll

theorem broadcastMediaState (h : Emits K w v) : Emits K w (v.broadcastMediaState ord r d) := by
  unfold World.broadcastMediaState
  split_ifs
  · exact h.broadcastExcept
  · exact h

theorem broadcastRecordState (h : Emits K w v) {recording : Bool} :
    Emits K w (v.broadcastRecordState ord r d kind stream recording) := by
  unfold World.broadcastRecordState
  split_ifs
  · exact h.broadcastExcept
  · exact h

theorem notifyStatsChanged (h : Emits K w v) : Emits K w v.notifyStatsChanged := h.emit (by simp)

theorem spawn (h : Emits K w v) {calls : List ZlmCall} : Emits K w (v.spawn d calls) :=
  emit (v := { v with goroutines := _ }) h (by simp)

theorem startStream (h : Emits K w v) : Emits K w (v.startStream ord r d kind stream) :=
  h.setClient.broadcastStreamStarted

theorem stopStream (h : Emits K w v) : Emits K w (v.stopStream ord r d kind stream) :=
  h.broadcastStreamStopped.notifyStatsChanged.spawn

theorem announceJoin (h : Emits K w v) : Emits K w (v.announceJoin ord r d) := by
  unfold World.announceJoin
  dsimp only
  split_ifs
  · exact ((h.emit (by simp)).send (Or.inl rfl)).broadcastExcept.notifyStatsChanged
  · exact ((h.emit (by simp)).send (Or.inl rfl)).notifyStatsChanged

/-- A loop, from what its body emits. -/
theorem foldl {α : Type} {f : World → α → World} (hf : ∀ v a, Emits K v (f v a)) :
    ∀ (l : List α) {v : World}, Emits K w v → Emits K w (l.foldl f v) := by
  intro l
  induction l with
  | nil => intro v h; exact h
  | cons a l ih => intro v h; exact ih (h.trans (hf v a))

theorem removeObserver (h : Emits K w v) : Emits K w (v.removeObserver r d) := by
  unfold World.removeObserver
  by_cases hd : d ∉ (v.hub.room r).clients
  · rw [if_pos hd]
    exact h
  · rw [if_neg hd]
    exact h.removeFrom.removeRoomIfEmpty.notifyStatsChanged

theorem observerLeaveRoom (h : Emits K w v) : Emits K w (v.observerLeaveRoom d) := by
  unfold World.observerLeaveRoom
  split
  · exact h
  · exact h.setClient.removeObserver

theorem dismissObservers (h : Emits K w v) {message : String} :
    Emits K w (v.dismissObservers ord r message) :=
  foldl (fun _ _ => (refl.send (Or.inl rfl)).observerLeaveRoom) _ h

theorem withdraw (h : Emits K w v) : Emits K w (v.withdraw ord r d) := by
  have hstops : ∀ {v' : World}, Emits K w v' → ∀ entries : List (Kind × StreamID),
      Emits K w (entries.foldl (fun w e => w.broadcastStreamStopped ord r d e.1 e.2) v') :=
    fun hv entries => foldl (fun _ _ => refl.broadcastStreamStopped) entries hv
  unfold World.withdraw
  dsimp only
  split_ifs
  · exact (hstops h.setClient _).broadcastExcept.spawn.emit (by simp)
  · exact (hstops h.setClient _).spawn.emit (by simp)

theorem removeClient (h : Emits K w v) : Emits K w (v.removeClient ord r d) := by
  unfold World.removeClient
  by_cases hob : v.hub.isObserver d = true
  · rw [if_pos hob]
    exact h.removeObserver
  · rw [if_neg hob]
    by_cases hd : d ∉ (v.hub.room r).clients
    · rw [if_pos hd]
      exact h
    · rw [if_neg hd]
      have hgone : Emits K w ((v.removeFrom r d).withdraw ord r d) := h.removeFrom.withdraw
      dsimp only
      by_cases hactive : ((v.removeFrom r d).withdraw ord r d).hub.isBusinessActive r = true
      · rw [if_pos hactive]
        exact hgone.removeRoomIfEmpty.notifyStatsChanged
      · rw [if_neg hactive]
        exact hgone.dismissObservers.removeRoomIfEmpty.notifyStatsChanged

theorem leaveRoom (h : Emits K w v) : Emits K w (v.leaveRoom ord d) := by
  unfold World.leaveRoom
  split
  · exact h
  · exact h.setClient.removeClient

theorem cleanup (h : Emits K w v) : Emits K w (v.cleanup ord d) := by
  unfold World.cleanup
  split_ifs
  · exact h
  · dsimp only
    split
    · exact h.setClient
    · exact h.setClient.removeClient

theorem forceKick (h : Emits K w v) {reason : String} : Emits K w (v.forceKick ord d reason) := by
  unfold World.forceKick
  by_cases hconn : (v.hub.client d).hasConn = true
  · rw [if_pos hconn]
    exact h.send (Or.inl rfl)
  · rw [if_neg hconn]
    exact h.leaveRoom

theorem observeLeave (h : Emits K w v) {k : ConnID} : Emits K w (v.observeLeave k) := by
  unfold World.observeLeave
  split
  · exact h
  · exact h.observerLeaveRoom.setConn

theorem addObserver (h : Emits K w v) {roomID : RoomID} : Emits K w (v.addObserver ord roomID d).1 := by
  unfold World.addObserver
  split
  · exact h
  · unfold World.addObserverClient
    split_ifs
    · exact h
    · dsimp only
      exact (((h.setHub.setClient.emit (by simp)).send (Or.inl rfl)).notifyStatsChanged).setClient

theorem handleObserveJoin (h : Emits K w v) {env : Env} {k : ConnID} (u : UserID)
    (p : Decoded ObserveJoinPayload) : Emits K w (World.handleObserveJoin env v k u p).1 := by
  unfold World.handleObserveJoin
  by_cases hclient : (v.conn k).client.isSome = true
  · rw [if_pos hclient]
    exact h
  · rw [if_neg hclient]
    cases p with
    | error e => exact h
    | ok p =>
      dsimp only
      by_cases hroom : Text.trimSpace p.room = ""
      · rw [if_pos hroom]
        exact h
      · rw [if_neg hroom]
        cases v.hub.getRoom (Text.trimSpace p.room) with
        | none => exact h
        | some r =>
          dsimp only
          cases v.hub.observeGate env.order r p.mode with
          | some e => exact h
          | none =>
            dsimp only
            have hadded : Emits K w ((v.setHub (v.hub.allocate u
                (Hub.observerClient u (v.conn k).username))).addObserver env.order
                  ((v.setHub (v.hub.allocate u
                    (Hub.observerClient u (v.conn k).username))).hub.room r).id u).1 :=
              (h.setHub).addObserver
            generalize (v.setHub (v.hub.allocate u
                (Hub.observerClient u (v.conn k).username))).addObserver env.order
                  ((v.setHub (v.hub.allocate u
                    (Hub.observerClient u (v.conn k).username))).hub.room r).id u = res at hadded ⊢
            obtain ⟨x, e⟩ := res
            cases e with
            | some e => exact hadded
            | none => exact hadded.setConn

end World.Emits

theorem World.Grows.trans {w v u : World} (h1 : Grows w v) (h2 : Grows v u) : Grows w u :=
  List.IsPrefix.trans h1 h2

section Log

variable {env : Env} {w : World} {c d : UserID} {reqID : String} {b : Body} {a : Act}

theorem World.Quiet.grows {v : World} (h : Quiet w v) : Grows w v := by
  obtain ⟨es, hes, -⟩ := h.log
  exact ⟨es, hes.symm⟩

theorem World.Aside.grows {v : World} (h : Aside w v) : Grows w v := by
  obtain ⟨es, hes, -⟩ := h.log
  exact ⟨es, hes.symm⟩

/-- Handling a message answers nobody, or succeeds and replies to its sender once. -/
theorem Handled.told {v : World × Option Err} (h : Handled env w d reqID b a v) {K : UserID → Prop} :
    Emits K w v.1 ∨ v.2 = none ∧
      ∃ u m, Emits K w u ∧ Emits K (u.send d reqID m) v.1 := by
  have hcall : ∀ start app kind stream ok u q m,
      .sent u q m ∈ [Event.recordCall start d app kind stream ok] → q = "" ∨ K u := by
    intro start app kind stream ok u q m hm
    cases start <;> simp [Event.recordCall] at hm
  cases h with
  | turnedAway e hf hroom hv hadm =>
    obtain ⟨rfl, rfl⟩ := World.getOrCreateRoom_hub hv
    exact Or.inl Emits.refl.setClient.setHub.removeRoomIfEmpty
  | joined hf hroom hv hadm =>
    obtain ⟨rfl, rfl⟩ := World.getOrCreateRoom_hub hv
    exact Or.inl Emits.refl.setClient.setHub.setHub.announceJoin.setClient
  | chatted hroom => exact Or.inl Emits.refl.sendAll
  | mediaChanged hroom => exact Or.inl Emits.refl.setClient.broadcastMediaState
  | exchangeFailed e => exact Or.inl (Emits.refl.emit (by simp))
  | published sdp hroom hbiz hs =>
    exact Or.inr ⟨rfl, _, _, ((Emits.refl.emit (by simp)).emit (by simp)).startStream.notifyStatsChanged, Emits.refl⟩
  | played m sdp es hroom hm hes =>
    refine Or.inr ⟨rfl, _, _, Emits.refl.setClient.emit ?_, Emits.refl⟩
    intro u q m' he
    rcases List.mem_cons.1 he with he | he
    · cases he
    · cases hes _ he
  | started hroom hbiz hs => exact Or.inl Emits.refl.startStream
  | stopped hroom hbiz hk hs hne => exact Or.inl Emits.refl.setClient.stopStream
  | recordFailed e hroom hs => exact Or.inl (Emits.refl.emit (hcall _ _ _ _ _))
  | recorded hroom hbiz hs =>
    exact Or.inr ⟨rfl, _, _, (Emits.refl.emit (hcall _ _ _ _ _)).setClient,
      Emits.refl.broadcastRecordState.notifyStatsChanged⟩
  | _ => exact Or.inl Emits.refl

theorem Handled.grows {v : World × Option Err} (h : Handled env w d reqID b a v) : Grows w v.1 := by
  rcases h.told (K := fun _ => True) with hv | ⟨-, u, m, hu, hv⟩
  · exact hv.grows
  · exact (hu.send (q := reqID) (Or.inr trivial)).grows.trans hv.grows

theorem Turn.grows {i : Input} {w' : World} (h : Turn w i a w') : Grows w w' := by
  have hrefl : Emits (fun _ => True) w w := Emits.refl
  cases h with
  | quiet h => exact h.grows
  | connected hop hc => exact hrefl.grows
  | served hop hc h hq => exact ((hrefl.emit (by simp)).grows.trans h.grows).trans hq.grows
  | departed hop hc => exact hrefl.cleanup.grows
  | @called n hop =>
    unfold runGoroutine
    split
    · exact List.prefix_append _ _
    · exact hrefl.grows
  | observed hop hu hl hgate hw' =>
    rw [hw']
    exact (((hrefl.setHub.emit (by simp)).send (Or.inl rfl)).notifyStatsChanged.setConn).grows
  | watched ho h hq => exact h.grows.trans hq.grows
  | unobserved h hq => exact h.grows.trans hq.grows

end Log

theorem step_log {w : World} (hw : w.Sound) (i : Input) : (w.step i).log = w.log ++ w.news i := by
  obtain ⟨es, hes⟩ := (step_turn (i := i) hw).grows
  rw [World.news, ← hes, List.drop_left]

/-- The events of a step that concern ZLM are what its act adds to the history. -/
theorem step_news {w : World} (hw : w.Sound) (i : Input) :
    (w.books.step (w.act i)).history = w.books.history ++ (w.news i).filter Event.onBooks := by
  rw [← hw.step_books i]
  simp only [World.books, step_log hw i, List.filter_append]

/-- What a member's departure asks of ZLM. -/
theorem departure_news {w : World} (hw : w.Sound) {c : UserID} {app : RoomID}
    (hc : w.serving c = true) (happ : w.hub.appOf c = some app) (env : Env) :
    (w.news { op := .disconnect c, env }).filter Event.onBooks =
      [.spawned c (w.books.departureCalls c app (w.departingStreams env.order c)),
        .departed c app] := by
  have hact : w.act { op := .disconnect c, env } = .depart c (w.departingStreams env.order c) := by
    simp only [World.act, hc, if_true]
  have hnews := step_news hw { op := .disconnect c, env }
  have happ' : (w.books.note []).app c = some app := happ
  simp only [hact, Books.step, Act.heard, Books.perform, Books.depart, happ', Books.note_history,
    Books.spawn_history, Books.setRecordings_history, Books.setStreams_history, List.append_nil,
    List.append_assoc] at hnews
  rw [Books.note_nil] at hnews
  exact (List.append_cancel_left hnews).symm

end Meetkit
