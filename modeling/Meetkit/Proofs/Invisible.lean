import Meetkit.Proofs.Runs
import Meetkit.Proofs.TwinSteps
import Mathlib.Data.List.Induction

/-! Observers are invisible: the run without the operations of observers looks the
same to every business client. -/

namespace Meetkit

open World

/-! ### What observers do -/

theorem members_of_gate {w : World} (hw : w.hub.WellFormed) {ord : MapOrder} {r : RoomRef} {mode : String}
    (hl : w.hub.rooms.lookup (w.hub.room r).id = some r)
    (hgate : w.hub.observeGate ord r mode = none) : w.hub.members r ≠ [] := by
  have hreal := observeGate_room hgate
  unfold Hub.roomHasRealMembers at hreal
  split at hreal
  · rename_i rs hfind
    have hid : rs.id = (w.hub.room r).id := by simpa using List.find?_some hfind
    obtain ⟨s, hs, rfl⟩ := List.mem_map.1 (List.mem_of_find?_eq_some hfind)
    obtain ⟨⟨id, s'⟩, hentry, rfl⟩ := List.mem_map.1 hs
    have hlook := GoMap.mem_range.1 hentry
    -- the table has one room of the id
    have hsid : (w.hub.room s').id = id := (hw.table id s' hlook).1
    have hsr : s' = r := by
      have hid' : (w.hub.room s').id = (w.hub.room r).id := hid
      rw [← hid', hsid, hlook] at hl
      exact Option.some.inj hl
    subst hsr
    intro hnil
    simp [Hub.roomStats, hnil] at hreal
  · cases hreal

/-- From `w` to `v` nothing happens that a business client could see. An observer
may have been let in under a new id. -/
structure World.Unseen (w v : World) : Prop where
  token : v.hub.token = w.hub.token
  rooms : v.hub.rooms = w.hub.rooms
  nextRoom : v.hub.nextRoom = w.hub.nextRoom
  id : ∀ r, (v.hub.room r).id = (w.hub.room r).id
  mode : ∀ r, (v.hub.room r).mode = (w.hub.room r).mode
  members : ∀ r, v.hub.members r = w.hub.members r
  deserted : ∀ r, w.hub.members r = [] → (w.hub.room r).clients = [] → (v.hub.room r).clients = []
  client : ∀ c, v.hub.isObserver c = false → v.hub.client c = w.hub.client c
  observer : ∀ c, v.hub.isObserver c = true → w.hub.isObserver c = true ∨ c ∉ w.hub.used
  silent : ∀ c, v.hub.isObserver c = true → (v.hub.client c).streams = ∅
  used : ∀ c, v.hub.isObserver c = false → (c ∈ v.hub.used ↔ c ∈ w.hub.used)
  goroutines : v.goroutines = w.goroutines
  trace : ∀ c, v.hub.isObserver c = false → trace c v.log = trace c w.log

namespace World.Unseen

variable {w v : World}

theorem refl (hw : w.hub.WellFormed) : Unseen w w :=
  ⟨rfl, rfl, rfl, fun _ => rfl, fun _ => rfl, fun _ => rfl, fun _ _ h => h, fun _ _ => rfl,
    fun _ h => Or.inl h, fun c hc => (hw.silent c hc).1, fun _ _ => Iff.rfl, rfl, fun _ _ => rfl⟩

theorem business (h : Unseen w v) {c : UserID} (hc : v.hub.isObserver c = false) :
    w.hub.isObserver c = false := by
  rw [Hub.isObserver, ← h.client c hc]
  exact hc

theorem emit (h : Unseen w v) {es : List Event}
    (hes : ∀ e ∈ es, ∀ c, e.owner = some c → v.hub.isObserver c = true) : Unseen w (v.emit es) := by
  refine ⟨h.token, h.rooms, h.nextRoom, h.id, h.mode, h.members, h.deserted, h.client, h.observer,
    h.silent, h.used, h.goroutines, fun c hc => ?_⟩
  have hnone : Meetkit.trace c es = [] := by
    refine List.filter_eq_nil_iff.2 fun e he => ?_
    intro ho
    have hob := hes e he c (by simpa using ho)
    change v.hub.isObserver c = false at hc
    rw [hc] at hob
    cases hob
  rw [emit_log, trace_append, hnone, List.append_nil]
  exact h.trace c hc

theorem send (h : Unseen w v) {o : UserID} (ho : v.hub.isObserver o = true) (q : String)
    (m : ServerMsg) : Unseen w (v.send o q m) := by
  unfold World.send
  split_ifs
  · exact h
  · refine h.emit fun e he c hc => ?_
    rw [List.mem_singleton.1 he] at hc
    exact Option.some.inj hc ▸ ho

theorem setConn (h : Unseen w v) (k : ConnID) (f : ObserveConn → ObserveConn) :
    Unseen w (v.setConn k f) :=
  ⟨h.token, h.rooms, h.nextRoom, h.id, h.mode, h.members, h.deserted, h.client, h.observer,
    h.silent, h.used, h.goroutines, h.trace⟩

theorem setClient (hw : w.hub.WellFormed) {o : UserID} (ho : w.hub.isObserver o = true)
    {f : Client → Client} (hob : ∀ x, (f x).isObserver = x.isObserver)
    (hs : ∀ x, (f x).streams = x.streams) : Unseen w (w.setClient o f) := by
  have hsame : ∀ c, (w.setClient o f).hub.isObserver c = w.hub.isObserver c :=
    isObserver_setClient (hob _)
  refine ⟨rfl, rfl, rfl, fun _ => rfl, fun _ => rfl, fun r => ?_, fun _ _ h => h, fun c hc => ?_,
    fun c hc => Or.inl ((hsame c).symm.trans hc), fun c hc => ?_, fun _ _ => Iff.rfl, rfl,
    fun _ _ => rfl⟩
  · simp only [Hub.members, hsame]; rfl
  · have hne : c ≠ o := by rintro rfl; rw [hsame, ho] at hc; cases hc
    exact Hub.setClient_ne _ _ _ _ hne
  · have hold := (hw.silent c ((hsame c).symm.trans hc)).1
    rw [setClient_hub, Hub.setClient_client]
    split_ifs with hco
    · subst hco; rw [hs]; exact hold
    · exact hold

theorem observerLeaveRoom (hw : w.hub.WellFormed) (hwatched : w.hub.Watched) {o : UserID}
    (ho : w.hub.isObserver o = true) : Unseen w (w.observerLeaveRoom o) := by
  have ha : Aside w (w.observerLeaveRoom o) := .observerLeaveRoom hw ho
  have hrooms : (w.observerLeaveRoom o).hub.rooms = w.hub.rooms := by
    cases hr : (w.hub.client o).room with
    | none =>
      have hself : w.observerLeaveRoom o = w := by simp only [World.observerLeaveRoom, hr]
      rw [hself]
    | some r =>
      have hmem := hw.present o r hr (hw.watching o ho)
      have hsome : w.hub.members r ≠ [] := fun hnil =>
        List.ne_nil_of_mem hmem (hwatched r hnil)
      have hkeep : ((w.observerLeaveRoom o).hub.room r).clients ≠ [] := by
        intro hnil
        refine hsome ?_
        rw [← ha.hub.members, Hub.members, hnil]
        rfl
      have heq : (w.observerLeaveRoom o).hub = w.hub.withoutObserver r o := by
        rw [Aside.observerLeaveRoom_eq hw ho hr, notifyStatsChanged_hub, setHub_hub]
      rw [heq, Hub.withoutObserver, Hub.removeRoomIfEmpty_room] at hkeep
      rw [heq, Hub.withoutObserver, Hub.removeRoomIfEmpty, if_neg hkeep]
      rfl
  refine ⟨ha.hub.token, hrooms, ha.hub.nextRoom, ha.hub.id, ha.hub.mode, ha.hub.members,
    fun r _ hnil => ?_, fun c hc => ?_, fun c hc => Or.inl ((ha.hub.isObserver c).symm.trans hc),
    fun c hc => (ha.wellFormed.silent c hc).1, fun c _ => by rw [ha.hub.used], ha.goroutines,
    fun c hc => ?_⟩
  · refine List.eq_nil_iff_forall_not_mem.2 fun d hd => ?_
    have hd' := ha.hub.was r d hd
    rw [hnil] at hd'
    exact List.not_mem_nil hd'
  · exact ha.hub.client c ((ha.hub.isObserver c).symm.trans hc)
  · exact ha.trace hc

theorem observing (hw : w.hub.WellFormed) {ord : MapOrder} {u : UserID} {username : String}
    {r : RoomRef} (hu : u ∉ w.hub.used) (hr : w.hub.members r ≠ []) :
    Unseen w (w.observing ord u username r) := by
  have hbiz : w.hub.isObserver u = false := by rw [Hub.isObserver, hw.unborn u hu]
  have hout : ∀ s, u ∉ (w.hub.room s).clients :=
    hw.not_member_of_room (by rw [hw.unborn u hu])
  have hclient : ∀ c, c ≠ u → (w.hub.withObserver u username r).client c = w.hub.client c := by
    intro c hc
    rw [Hub.withObserver, Hub.setClient_ne _ _ _ _ hc]
    exact Function.update_of_ne hc _ _
  have hself : (w.hub.withObserver u username r).client u =
      { Hub.observerClient u username with room := some r } := by
    simp [Hub.withObserver, Hub.addTo, Hub.allocate]
  have hob : ∀ c, (w.hub.withObserver u username r).isObserver c = true →
      c = u ∨ w.hub.isObserver c = true := by
    intro c hc
    by_cases hcu : c = u
    · exact Or.inl hcu
    · exact Or.inr (by rw [Hub.isObserver, hclient c hcu] at hc; exact hc)
  have hne : ∀ c, (w.hub.withObserver u username r).isObserver c = false → c ≠ u := by
    rintro c hc rfl
    rw [Hub.isObserver, hself] at hc
    cases hc
  have hroom : ∀ s, (w.hub.withObserver u username r).room s =
      if s = r then (w.hub.room r).add u else w.hub.room s := by
    intro s
    rw [Hub.withObserver, Hub.setClient_room, Hub.addTo, Hub.setRoom_room]
    rfl
  have h1 : Unseen w (w.setHub (w.hub.withObserver u username r)) := by
    refine ⟨rfl, rfl, rfl, fun s => ?_, fun s => ?_, fun s => ?_, fun s hm hnil => ?_,
      fun c hc => hclient c (hne c hc), fun c hc => ?_, fun c hc => ?_, fun c hc => ?_, rfl,
      fun _ _ => rfl⟩
    · rw [setHub_hub, hroom]; split_ifs with hs
      · subst hs; rfl
      · rfl
    · rw [setHub_hub, hroom]; split_ifs with hs
      · subst hs; rfl
      · rfl
    · have hsame : ∀ l : List UserID, u ∉ l →
          l.filter (fun c => !(w.hub.withObserver u username r).isObserver c) =
            l.filter fun c => !w.hub.isObserver c := by
        intro l hl
        refine List.filter_congr fun c hc => ?_
        have hcu : c ≠ u := by rintro rfl; exact hl hc
        rw [Hub.isObserver, hclient c hcu]
        rfl
      rw [setHub_hub, Hub.members, hroom]
      by_cases hs : s = r
      · subst hs
        have hobu : (w.hub.withObserver u username s).isObserver u = true := by
          rw [Hub.isObserver, hself]; rfl
        have hadd : ((w.hub.room s).add u).clients = u :: (w.hub.room s).clients :=
          List.insert_of_not_mem (hout s)
        rw [if_pos rfl, hadd, List.filter_cons_of_neg (by simp [hobu])]
        exact hsame _ (hout s)
      · rw [if_neg hs]
        exact hsame _ (hout s)
    · have hs : s ≠ r := by rintro rfl; exact hr hm
      rw [setHub_hub, hroom, if_neg hs]
      exact hnil
    · rcases hob c hc with rfl | hc
      · exact Or.inr hu
      · exact Or.inl hc
    · rcases hob c hc with rfl | hc'
      · rw [setHub_hub, hself]; rfl
      · have hcu : c ≠ u := by rintro rfl; rw [hbiz] at hc'; cases hc'
        rw [setHub_hub, hclient c hcu]
        exact (hw.silent c hc').1
    · have hcu := hne c hc
      change c ∈ u :: w.hub.used ↔ c ∈ w.hub.used
      simp [hcu]
  have hobu : (w.setHub (w.hub.withObserver u username r)).hub.isObserver u = true := by
    rw [setHub_hub, Hub.isObserver, hself]; rfl
  refine (h1.emit fun e he c hc => ?_).send hobu _ _
  rw [List.mem_singleton.1 he] at hc
  exact Option.some.inj hc ▸ hobu

/-- The offer of an observer shows on the observer alone. -/
theorem offered (hw : w.hub.WellFormed) {env : Env} {o : UserID} {reqID : String}
    {p : Decoded WebRTCOfferPayload} {v : World × Option Err} (ho : w.hub.isObserver o = true)
    (h : Handled env w o reqID (.webrtcOffer p) .rest v) : Unseen w v.1 := by
  have hself : Unseen w w := .refl hw
  cases h with
  | refused e hb => exact hself
  | ignored hb => exact hself
  | exchangeFailed e =>
    exact hself.emit fun e he c hc => by
      rw [List.mem_singleton.1 he] at hc; exact Option.some.inj hc ▸ ho
  | @played p r stream key entry m sdp es hroom hm hes =>
    have h1 : Unseen w (w.setClient o fun x => { x with pulling := x.pulling.insert key entry }) :=
      .setClient hw ho (fun _ => rfl) fun _ => rfl
    have ho1 : (w.setClient o fun x => { x with pulling := x.pulling.insert key entry }).hub.isObserver
        o = true := (isObserver_setClient (by rfl) o).trans ho
    refine (h1.emit fun e he c hc => ?_).send ho1 _ _
    rcases List.mem_cons.1 he with rfl | he
    · exact Option.some.inj hc ▸ ho1
    · rw [hes e he] at hc; cases hc

end World.Unseen

theorem observer_step_unseen {w : World} {i : Input} (hw : w.Sound) (hwatched : w.hub.Watched)
    (hi : i.ofBusiness = false) : Unseen w (w.step i) := by
  obtain ⟨op, env⟩ := i
  have hself : Unseen w w := .refl hw.hub
  have hpush : ∀ {v : World} {k type q e}, Unseen w v → Unseen w (v.emit [.pushed k type q e]) :=
    fun h => h.emit fun e he c hc => by rw [List.mem_singleton.1 he] at hc; cases hc
  have hleave : ∀ k, Unseen w (w.observeLeave k) := by
    intro k
    unfold observeLeave
    cases hc : (w.conn k).client with
    | none => exact hself
    | some o => exact (Unseen.observerLeaveRoom hw.hub hwatched (hw.conn k o hc)).setConn _ _
  cases op with
  | observeOpen k username =>
    simp only [step]
    split_ifs
    · exact hself
    · exact hself.setConn _ _
  | observeClose k =>
    simp only [step, observeClose]
    split_ifs
    · exact hself
    · exact (hleave k).setConn _ _
    · exact hself
  | observe k reqID body =>
    simp only [step]
    split_ifs with hk
    · simp only [Bool.and_eq_true] at hk
      cases body with
      | join u p =>
        have hu : u ∉ w.hub.used := by simpa [observeFresh] using hk.2
        simp only [observeReceive]
        rcases handleObserveJoin_cases hw env k u p with ⟨e, he⟩ | ⟨r, mode, hl, hgate, hrun⟩
        · rw [he]
          exact hpush hself
        · rw [hrun]
          have h1 : Unseen w (w.observing env.order u (w.conn k).username r) :=
            .observing hw.hub hu (members_of_gate hw.hub hl hgate)
          exact (h1.emit fun e he c hc => by
            rw [List.mem_singleton.1 he] at hc; cases hc).setConn _ _
      | leave => exact hpush (hleave k)
      | watchStop detail =>
        simp only [observeReceive]
        split_ifs
        · exact hself
        · cases detail with
          | error e => exact hpush hself
          | ok detail =>
            dsimp only
            split_ifs
            · exact hself.emit fun e he c hc => by rw [List.mem_singleton.1 he] at hc; cases hc
            · exact hself
      | webrtcOffer p =>
        simp only [observeReceive]
        cases hc : (w.conn k).client with
        | none => exact hpush hself
        | some o =>
          have ho := hw.conn k o hc
          have h : Unseen w (handleWebRTCOffer env w o reqID p).1 :=
            .offered hw.hub ho (observerOffer_handled ho p)
          have hd : dispatch env w o ⟨reqID, .webrtcOffer p⟩ = handleWebRTCOffer env w o reqID p := rfl
          cases hv : handleWebRTCOffer env w o reqID p with
          | mk v e =>
            rw [hv] at h
            simp only [hd, hv]
            cases e with
            | none => exact h
            | some e => exact hpush h
      | unknown type => exact hpush hself
    · exact hself
  | connect c => cases hi
  | receive c e => cases hi
  | badEnvelope c cause => cases hi
  | disconnect c => cases hi
  | kick roomID userID reason => cases hi
  | dissolve roomID reason => cases hi
  | goroutine n => cases hi

theorem World.Unseen.twin {w v w' : World} (hu : Unseen w v) (hw : w.hub.WellFormed)
    (ht : Twin w w') : Twin v w' where
  hub := {
    token := ht.hub.token.trans hu.token.symm
    rooms := ht.hub.rooms.trans hu.rooms.symm
    nextRoom := ht.hub.nextRoom.trans hu.nextRoom.symm
    id := fun r => (ht.hub.id r).trans (hu.id r).symm
    mode := fun r => (ht.hub.mode r).trans (hu.mode r).symm
    clients := fun r => (ht.hub.clients r).trans (hu.members r).symm
    client := fun c hc => (ht.hub.client c (hu.business hc)).trans (hu.client c hc).symm
    unborn := fun c hc => by
      rcases hu.observer c hc with ho | hfresh
      · exact ht.hub.unborn c ho
      · have hnew := hw.unborn c hfresh
        have hbiz : w.hub.isObserver c = false := by rw [Hub.isObserver, hnew]
        rw [ht.hub.client c hbiz, hnew]
    silent := hu.silent
    used := fun c hc => (ht.hub.used c (hu.business hc)).trans (hu.used c hc).symm }
  goroutines := ht.goroutines.trans hu.goroutines.symm
  trace c hc := (ht.trace c (hu.business hc)).trans (hu.trace c hc).symm

theorem World.Unseen.watched {w v : World} (hu : Unseen w v) (hwatched : w.hub.Watched) :
    v.hub.Watched := by
  intro r hr
  rw [hu.members] at hr
  exact hu.deserted r hr (hwatched r hr)

/-! ### Rooms are watched only while they have members -/

section Watched

variable {env : Env} {w : World} {i : Input} {c : UserID} {reqID : String} {b : Body} {a : Act}

theorem Hub.Watched.addTo {h : Hub} (hw : h.Watched) (hc : h.isObserver c = false) (r : RoomRef) :
    (h.addTo r c).Watched := by
  intro s hs
  by_cases hsr : s = r
  · subst hsr
    have hmem : c ∈ (h.addTo s c).members s := by
      refine mem_members.2 ⟨?_, hc⟩
      rw [Hub.addTo, Hub.setRoom_same]
      exact Room.mem_add.2 (Or.inl rfl)
    rw [hs] at hmem
    exact absurd hmem List.not_mem_nil
  · have hroom : (h.addTo r c).room s = h.room s := Hub.setRoom_ne _ _ _ _ hsr
    rw [hroom]
    refine hw s ?_
    rw [Hub.members, hroom] at hs
    exact hs

theorem Handled.watched {v : World × Option Err} (hw : w.hub.Watched)
    (hbiz : w.hub.isObserver c = false) (h : Handled env w c reqID b a v) : v.1.hub.Watched := by
  cases h with
  | misjoined e hf hroom => exact hw.setClient (hf.isObserver _)
  | @turnedAway p f id mode v r e hf hroom hv hadm =>
    obtain ⟨rfl, rfl⟩ := World.getOrCreateRoom_hub hv
    have hv' := (hw.setClient (c := c) (hf.isObserver _)).getOrCreateRoom id mode
    intro s hs
    simp only [World.removeRoomIfEmpty, setHub_hub, Hub.removeRoomIfEmpty_room]
    refine hv' s ?_
    simpa only [Hub.members, Hub.isObserver, World.removeRoomIfEmpty, setHub_hub, setClient_hub,
      Hub.removeRoomIfEmpty_room, Hub.removeRoomIfEmpty_client] using hs
  | @joined p f mode v r hf hroom hv hadm =>
    obtain ⟨rfl, rfl⟩ := World.getOrCreateRoom_hub hv
    have hv' := (hw.setClient (c := c) (hf.isObserver _)).getOrCreateRoom p.room mode
    rw [setClient_hub, announceJoin_hub]
    refine (hv'.addTo ?_ _).setClient (by rfl)
    rw [Hub.isObserver, Hub.getOrCreateRoom_client]
    exact (isObserver_setClient (hf.isObserver _) c).trans hbiz
  | mediaChanged hroom =>
    rw [broadcastMediaState_hub, setClient_hub]
    exact hw.setClient (by rfl)
  | published sdp hroom hb hs =>
    rw [send_hub, notifyStatsChanged_hub, startStream_hub]
    exact hw.setClient (by rfl)
  | played m sdp es hroom hm hes =>
    rw [send_hub, emit_hub, setClient_hub]
    exact hw.setClient (by rfl)
  | started hroom hb hs =>
    rw [startStream_hub]
    exact hw.setClient (by rfl)
  | stoppedNone hroom hb hk hs =>
    rw [setClient_hub]
    exact hw.setClient (by rfl)
  | stopped hroom hb hk hs hne =>
    rw [stopStream_hub, setClient_hub]
    exact hw.setClient (by rfl)
  | recorded hroom hb hs =>
    rw [recordControlled_hub]
    exact hw.setClient (by rfl)
  | _ => exact hw

theorem Turn.keepsWatched {w' : World} (hw : w.Sound) (hwatched : w.hub.Watched)
    (h : Turn w i a w') : w'.hub.Watched := by
  cases h with
  | quiet h => rw [h.hub]; exact hwatched
  | @connected c hop hc =>
    have hbiz : w.hub.isObserver c = false := by rw [Hub.isObserver, hw.hub.unborn c hc]
    intro r hr
    refine hwatched r ?_
    have hsame : (w.hub.allocate c newClient).members r = w.hub.members r := by
      simp only [Hub.members, Hub.Twin.isObserver_allocate hbiz (x := newClient) rfl]
      rfl
    exact hsame.symm.trans hr
  | @served c e a v w' hop hc h hq =>
    rw [hq.hub]
    have hv : (w.emit [.received c e.body]).hub.Watched := hwatched
    exact h.watched hv (hw.hub.business (serving_iff.1 hc).1)
  | departed hop hc => exact cleanup_watched hw.hub hwatched hc
  | @called n hop =>
    have hsame : (w.runGoroutine n).hub = w.hub := by unfold runGoroutine; split <;> rfl
    rw [hsame]
    exact hwatched
  | @observed u k reqID username mode p r w' hop hu hl hgate hw' =>
    subst hw'
    have h1 : Unseen w (w.observing i.env.order u username r) :=
      .observing hw.hub hu (members_of_gate hw.hub hl hgate)
    exact h1.watched hwatched
  | watched ho h hq =>
    rw [hq.hub]
    exact (Unseen.offered hw.hub ho h).watched hwatched
  | unobserved ha hq =>
    rw [hq.hub]
    intro r hr
    rw [ha.hub.members] at hr
    refine List.eq_nil_iff_forall_not_mem.2 fun d hd => ?_
    have hd' := ha.hub.was r d hd
    rw [hwatched r hr] at hd'
    exact List.not_mem_nil hd'

end Watched

/-! ### Ids are given out once -/

section Ids

variable {env : Env} {w : World} {i : Input} {c : UserID} {reqID : String} {b : Body} {a : Act}

theorem Handled.used {v : World × Option Err} (h : Handled env w c reqID b a v) :
    v.1.hub.used = w.hub.used := by
  cases h with
  | turnedAway e hf hroom hv hadm =>
    obtain ⟨rfl, rfl⟩ := World.getOrCreateRoom_hub hv
    simp [World.removeRoomIfEmpty]
  | joined hf hroom hv hadm =>
    obtain ⟨rfl, rfl⟩ := World.getOrCreateRoom_hub hv
    simp [World.addTo, Hub.addTo]
  | chatted hroom => exact congrArg Hub.used (says_sendAll _ _ _).hub
  | mediaChanged hroom => rw [broadcastMediaState_hub]; rfl
  | recorded hroom hb hs => rw [recordControlled_hub]; rfl
  | _ => simp

theorem cleanup_used {ord : MapOrder} (hw : w.hub.WellFormed) (hc : w.serving c = true) :
    (w.cleanup ord c).hub.used = w.hub.used := by
  cases hr : (w.hub.client c).room with
  | none => rw [cleanup_outside hc hr]; rfl
  | some r =>
    obtain ⟨v, ha, -, heq⟩ := cleanup_member ord hw hc hr
    rw [heq, notifyStatsChanged_hub, World.removeRoomIfEmpty, setHub_hub,
      Hub.removeRoomIfEmpty_used, ha.hub.used, withdrawn_hub]
    rfl

theorem Turn.newID {w' : World} (hw : w.Sound) (h : Turn w i a w') {u : UserID}
    (hu : u ∈ w'.hub.used) : u ∈ w.hub.used ∨ i.newID = some u := by
  cases h with
  | quiet h => rw [h.hub] at hu; exact Or.inl hu
  | @connected c hop hc =>
    rcases List.mem_cons.1 hu with rfl | hu
    · exact Or.inr (by simp [Input.newID, hop])
    · exact Or.inl hu
  | served hop hc h hq => rw [hq.hub, h.used] at hu; exact Or.inl hu
  | departed hop hc => rw [cleanup_used hw.hub hc] at hu; exact Or.inl hu
  | @called n hop =>
    have hsame : (w.runGoroutine n).hub = w.hub := by unfold runGoroutine; split <;> rfl
    rw [hsame] at hu
    exact Or.inl hu
  | @observed o k reqID username mode p r w' hop ho hl hgate hw' =>
    subst hw'
    have hhub : (w.observing i.env.order o username r).hub = w.hub.withObserver o username r :=
      observing_hub _ _ _ _
    change u ∈ (w.observing i.env.order o username r).hub.used at hu
    rw [hhub] at hu
    rcases List.mem_cons.1 hu with rfl | hu
    · exact Or.inr (by simp [Input.newID, hop])
    · exact Or.inl hu
  | watched ho h hq => rw [hq.hub, h.used] at hu; exact Or.inl hu
  | unobserved ha hq => rw [hq.hub, ha.hub.used] at hu; exact Or.inl hu

theorem used_newIDs (token : String) (is : List Input) {u : UserID}
    (hu : u ∈ ((server token).run is).hub.used) : u ∈ is.filterMap Input.newID := by
  induction is using List.reverseRecOn with
  | nil => exact absurd hu List.not_mem_nil
  | append_singleton is i ih =>
    rw [Machine.run_snoc] at hu
    rw [List.filterMap_append]
    rcases (step_turn (server_sound token is)).newID (server_sound token is) hu with hold | hnew
    · exact List.mem_append_left _ (ih hold)
    · exact List.mem_append_right _ (List.mem_filterMap.2 ⟨i, by simp, hnew⟩)

theorem freshConnects {token : String} {is : List Input}
    (hid : (is.filterMap Input.newID).Nodup) :
    (server token).Guarded World.FreshConnect is := by
  refine Machine.guarded_of_splits fun pre i post hsplit c hop => ?_
  by_contra hob
  rw [Bool.not_eq_false] at hob
  have hused := (server_sound token pre).hub.used_of_observer hob
  rw [hsplit, List.filterMap_append, List.nodup_append] at hid
  refine hid.2.2 c (used_newIDs token pre hused) c ?_ rfl
  exact List.mem_filterMap.2 ⟨i, by simp, by simp [Input.newID, hop]⟩

end Ids

/-! ### The two runs -/

def results (c : UserID) (log : List Event) : List (Option Err) :=
  log.filterMap fun
    | .handled d e => if d = c then some e else none
    | _ => none

def admissions (c : UserID) (log : List Event) : List RoomID :=
  log.filterMap fun
    | .joined d app => if d = c then some app else none
    | _ => none

/-- No business client can tell the two worlds apart: its messages got the same
results, its joins were accepted alike, it was sent the same messages, and the rooms
of the second are those of the first without the observers. -/
structure SameForBusiness (w w' : World) : Prop where
  results : ∀ c, w.hub.isObserver c = false → results c w'.log = results c w.log
  admissions : ∀ c, w.hub.isObserver c = false → admissions c w'.log = admissions c w.log
  inbox : ∀ c, w.hub.isObserver c = false → inbox c w'.log = inbox c w.log
  rooms : w'.hub.rooms = w.hub.rooms
  id : ∀ r, (w'.hub.room r).id = (w.hub.room r).id
  mode : ∀ r, (w'.hub.room r).mode = (w.hub.room r).mode
  clients : ∀ r, (w'.hub.room r).clients = w.hub.members r
  client : ∀ c, w.hub.isObserver c = false → w'.hub.client c = w.hub.client c

/-- What is read from the events of `c` alone is read from its trace. -/
theorem filterMap_trace {α : Type} {g : Event → Option α} {c : UserID}
    (hg : ∀ e, e.owner ≠ some c → g e = none) (log : List Event) :
    (trace c log).filterMap g = log.filterMap g := by
  induction log with
  | nil => rfl
  | cons e log ih =>
    by_cases he : e.owner = some c
    · rw [trace, List.filter_cons_of_pos (by simpa using he), List.filterMap_cons,
        List.filterMap_cons, ← trace, ih]
    · rw [trace, List.filter_cons_of_neg (by simpa using he), List.filterMap_cons, hg e he, ← trace,
        ih]

theorem World.Twin.same {w w' : World} (ht : Twin w w') : SameForBusiness w w' := by
  have hread : ∀ {α : Type} {g : Event → Option α} {c : UserID}, w.hub.isObserver c = false →
      (∀ e, e.owner ≠ some c → g e = none) → w'.log.filterMap g = w.log.filterMap g := by
    intro α g c hc hg
    rw [← filterMap_trace hg, ht.trace c hc, filterMap_trace hg]
  refine ⟨fun c hc => hread hc fun e he => ?_, fun c hc => hread hc fun e he => ?_,
    fun c hc => hread hc fun e he => ?_, ht.hub.rooms, ht.hub.id, ht.hub.mode, ht.hub.clients,
    ht.hub.client⟩
  · cases e with
    | handled d result => exact if_neg fun hd => he (congrArg some hd)
    | _ => rfl
  · cases e with
    | joined d app => exact if_neg fun hd => he (congrArg some hd)
    | _ => rfl
  · cases e with
    | sent d q m => exact if_neg fun hd => he (congrArg some hd)
    | _ => rfl

/-- Observers are invisible: if every connection and every observer gets an id of
its own, a run and the same run without the operations of observers are the same
for business clients. -/
theorem observers_invisible (token : String) (is : List Input)
    (hid : (is.filterMap Input.newID).Nodup) :
    SameForBusiness ((server token).run is) ((server token).run (is.filter Input.ofBusiness)) := by
  have hinit : Twin (server token).init (server token).init :=
    ⟨⟨rfl, rfl, rfl, fun _ => rfl, fun _ => rfl, fun _ => rfl, fun _ _ => rfl, fun _ _ => rfl,
      fun _ _ => rfl, fun _ _ => Iff.rfl⟩, rfl, fun _ _ => rfl⟩
  have hpaired := Machine.unwind
    (R := fun w w' : World => w.Sound ∧ w'.Sound ∧ w.hub.Watched ∧ Twin w w') (N := server token)
    Input.ofBusiness ⟨server_sound token [], server_sound token [], fun _ _ => rfl, hinit⟩
    (fun w w' i hi hfresh ⟨hw, hw', hwatched, ht⟩ =>
      ⟨(step_turn hw).sound hw, (step_turn hw').sound hw', (step_turn hw).keepsWatched hw hwatched,
        step_twin ht hw hw' hwatched hi hfresh⟩)
    (fun w w' i hi _ ⟨hw, hw', hwatched, ht⟩ =>
      ⟨(step_turn hw).sound hw, hw', (step_turn hw).keepsWatched hw hwatched,
        (observer_step_unseen hw hwatched hi).twin hw.hub ht⟩)
    (freshConnects hid)
  exact hpaired.2.2.2.same

/-- `a` publishes, an admin watches the room and plays the stream, `b` joins under a
name, and `a` leaves. -/
theorem watched_meeting_looks_unwatched :
    let is : List Input := [.connect "a", .join "a" "r", .publish "a" "cam",
      .observeOpen 0 "admin", .observeJoin 0 "o" "r", .observePlay 0 "a" "cam", .connect "b",
      .join "b" "r", .observeLeave 0, .disconnect "a"]
    (is.filterMap Input.newID).Nodup ∧
      SameForBusiness ((server "").run is) ((server "").run (is.filter Input.ofBusiness)) :=
  ⟨by decide, observers_invisible "" _ (by decide)⟩

end Meetkit
