import Meetkit.Proofs.Log

/-! Which messages answer requests. A handler sends its own client at most one message
under the request id of the envelope it handles, its reply or the error that goes
back; everything else the server sends carries no request id. -/

namespace Meetkit

open World

/-- The messages that answer requests. -/
def answers (msgs : List (String × ServerMsg)) : List (String × ServerMsg) :=
  msgs.filter fun x => x.1 ≠ ""

theorem answers_append (msgs more : List (String × ServerMsg)) :
    answers (msgs ++ more) = answers msgs ++ answers more := List.filter_append ..

theorem mem_answers {msgs : List (String × ServerMsg)} {y : String × ServerMsg} :
    y ∈ answers msgs ↔ y ∈ msgs ∧ y.1 ≠ "" := by
  rw [answers, List.mem_filter, decide_eq_true_iff]

def replies (c : UserID) (log : List Event) : List (String × ServerMsg) := answers (inbox c log)

theorem mem_inbox {c : UserID} {log : List Event} {x : String × ServerMsg} :
    x ∈ inbox c log → .sent c x.1 x.2 ∈ log := by
  intro hx
  obtain ⟨e, he, hex⟩ := List.mem_filterMap.1 hx
  cases e with
  | sent d q m =>
    dsimp only at hex
    split_ifs at hex with hd
    obtain rfl := Option.some.inj hex
    exact hd ▸ he
  | _ => cases hex

theorem replies_append (c : UserID) (log es : List Event) :
    replies c (log ++ es) = replies c log ++ replies c es := by
  rw [replies, inbox_append, answers_append]
  rfl

/-- Nothing in `v` that is not in `w` answers a request of `c`. -/
abbrev World.Mute (c : UserID) (w v : World) : Prop := World.Emits (· ≠ c) w v

theorem World.Mute.replies {c : UserID} {w v : World} (h : Mute c w v) :
    replies c v.log = replies c w.log := by
  obtain ⟨es, hes, hK⟩ := h
  have hnone : Meetkit.replies c es = [] := by
    refine List.filter_eq_nil_iff.2 fun x hx => ?_
    rw [decide_eq_true_iff, not_not]
    exact (hK _ _ _ (mem_inbox hx)).resolve_right fun h => h rfl
  rw [hes, replies_append, hnone, List.append_nil]

/-- Beyond what is in `w`, the request `q` of `c` is answered at most once in `v`, and no
other is. -/
def World.Answers (c : UserID) (q : String) (w v : World) : Prop :=
  ∃ l, replies c v.log = replies c w.log ++ l ∧ l.length ≤ 1 ∧ ∀ x ∈ l, x.1 = q

namespace World.Answers

variable {w v u : World} {c d : UserID} {q : String} {m : ServerMsg}

theorem of_mute (h : Mute c w v) : Answers c q w v :=
  ⟨[], by rw [List.append_nil]; exact h.replies, Nat.zero_le _, fun _ hx => absurd hx List.not_mem_nil⟩

theorem send (h : Mute c w v) : Answers c q w (v.send d q m) := by
  by_cases hd : q = "" ∨ d ≠ c
  · exact of_mute (h.send hd)
  · obtain ⟨hq, rfl⟩ : q ≠ "" ∧ d = c := by simpa using hd
    unfold World.send
    split_ifs
    · exact of_mute h
    · refine ⟨[(q, m)], ?_, le_rfl, fun x hx => by rw [List.mem_singleton.1 hx]⟩
      rw [emit_log, replies_append, h.replies]
      simp [replies, answers, inbox, hq]

theorem mute (h : Answers c q w v) (hm : Mute c v u) : Answers c q w u := by
  obtain ⟨l, hl, hlen, hall⟩ := h
  exact ⟨l, by rw [hm.replies, hl], hlen, hall⟩

end World.Answers

section Messages

variable {env : Env} {w : World} {c d : UserID} {reqID : String} {b : Body} {a : Act}

theorem receive_answers (e : Envelope) (hbiz : w.hub.isObserver d = false) :
    World.Answers c e.reqID w (receive env w d e) ∧
      (d ≠ c → World.Mute c w (receive env w d e)) := by
  have h : Handled env (w.emit [.received d e.body]) d e.reqID e.body
      ((w.emit [.received d e.body]).messageAct env d e.body)
      (dispatch env (w.emit [.received d e.body]) d e) := dispatch_handled e hbiz
  have hreceived : World.Mute c w (w.emit [.received d e.body]) := Emits.refl.emit (by simp)
  unfold receive
  cases hv : dispatch env (w.emit [.received d e.body]) d e with
  | mk v result =>
    rw [hv] at h
    dsimp only
    rcases h.told (K := (· ≠ c)) with hm | ⟨hnone, u, m, hu, hm⟩
    · have hhandled : World.Mute c w (v.emit [.handled d result]) :=
        (hreceived.trans hm).emit (by simp)
      cases result with
      | none => exact ⟨.of_mute hhandled, fun _ => hhandled⟩
      | some err => exact ⟨.send hhandled, fun hd => hhandled.send (Or.inr hd)⟩
    · obtain rfl : result = none := hnone
      have hend : World.Mute c (u.send d e.reqID m) (v.emit [.handled d none]) :=
        Emits.emit hm (by simp)
      have hu' := hreceived.trans hu
      exact ⟨(Answers.send hu').mute hend, fun hd => (hu'.send (Or.inr hd)).trans hend⟩

/-- What an observer's connection does answers nothing of a business client's. -/
theorem observeReceive_mute (hw : w.Sound) (hc : w.hub.isObserver c = false) {k : ConnID}
    (body : ObserveBody) : World.Mute c w (observeReceive env w k reqID body) := by
  cases body with
  | join u p =>
    have hjoined : World.Mute c w (World.handleObserveJoin env w k u p).1 :=
      Emits.refl.handleObserveJoin u p
    simp only [observeReceive]
    generalize World.handleObserveJoin env w k u p = res at hjoined ⊢
    obtain ⟨v, e⟩ := res
    cases e with
    | none => exact hjoined
    | some e => exact hjoined.emit (by simp)
  | leave => exact Emits.refl.observeLeave.emit (by simp)
  | watchStop detail =>
    simp only [observeReceive]
    split_ifs
    · exact Emits.refl
    · cases detail with
      | error e => exact Emits.refl.emit (by simp)
      | ok detail =>
        dsimp only
        split_ifs
        · exact Emits.refl.emit (by simp)
        · exact Emits.refl
  | webrtcOffer p =>
    simp only [observeReceive]
    cases hk : (w.conn k).client with
    | none => exact Emits.refl.emit (by simp)
    | some o =>
      have ho := hw.conn k o hk
      have hoc : o ≠ c := by
        rintro rfl
        rw [hc] at ho
        cases ho
      have h : Handled env w o reqID (.webrtcOffer p) .rest (handleWebRTCOffer env w o reqID p) :=
        observerOffer_handled ho p
      have hd : dispatch env w o ⟨reqID, .webrtcOffer p⟩ = handleWebRTCOffer env w o reqID p := rfl
      have hoffer : World.Mute c w (handleWebRTCOffer env w o reqID p).1 := by
        rcases h.told (K := (· ≠ c)) with hm | ⟨-, u, m, hu, hm⟩
        · exact hm
        · exact (hu.send (Or.inr hoc)).trans hm
      dsimp only
      rw [hd]
      generalize handleWebRTCOffer env w o reqID p = res at hoffer ⊢
      obtain ⟨v, e⟩ := res
      cases e with
      | none => exact hoffer
      | some e => exact hoffer.emit (by simp)
  | unknown type => exact Emits.refl.emit (by simp)

/-- A step that handles no message of `c` answers none of its requests. -/
theorem step_mute (hw : w.Sound) (hc : w.hub.isObserver c = false) {i : Input}
    (hi : ∀ e, i.op ≠ .receive c e) : World.Mute c w (w.step i) := by
  obtain ⟨op, env⟩ := i
  cases op with
  | connect d =>
    simp only [step]
    split_ifs
    · exact Emits.refl
    · exact Emits.refl.setHub
  | receive d e =>
    have hd : d ≠ c := by rintro rfl; exact hi e rfl
    simp only [step]
    split_ifs with hs
    · exact (receive_answers e (hw.hub.business (serving_iff.1 hs).1)).2 hd
    · exact Emits.refl
  | badEnvelope d cause =>
    simp only [step]
    split_ifs
    · exact Emits.refl.send (Or.inl rfl)
    · exact Emits.refl
  | disconnect d =>
    simp only [step]
    split_ifs
    · exact Emits.refl.cleanup
    · exact Emits.refl
  | kick roomID userID reason =>
    simp only [step, kickMember]
    cases w.hub.getRoom roomID with
    | none => exact Emits.refl
    | some r =>
      dsimp only
      by_cases hmember : userID ∉ (w.hub.room r).clients
      · rw [if_pos hmember]
        exact Emits.refl
      · rw [if_neg hmember]
        by_cases hob : w.hub.isObserver userID = true
        · rw [if_pos hob]
          exact Emits.refl
        · rw [if_neg hob]
          exact Emits.refl.forceKick
  | dissolve roomID reason =>
    simp only [step, dissolveRoom]
    cases w.hub.getRoom roomID with
    | none => exact Emits.refl
    | some r =>
      dsimp only
      by_cases hvictims : ((w.hub.clientsOf env.order r).filter fun c => !w.hub.isObserver c) = []
      · rw [if_pos hvictims]
        exact Emits.refl
      · rw [if_neg hvictims]
        exact Emits.foldl (fun _ _ => Emits.refl.forceKick) _ Emits.refl
  | goroutine n =>
    have hrefl : World.Mute c w w := Emits.refl
    simp only [step, runGoroutine]
    split
    · exact Emits.emit (v := { w with goroutines := _ }) hrefl (by simp)
    · exact hrefl
  | observeOpen k username =>
    simp only [step]
    split_ifs
    · exact Emits.refl
    · exact Emits.refl.setConn
  | observe k reqID body =>
    simp only [step]
    split_ifs
    · exact observeReceive_mute hw hc body
    · exact Emits.refl
  | observeClose k =>
    simp only [step, observeClose]
    split_ifs
    · exact Emits.refl
    · exact Emits.refl.observeLeave.setConn
    · exact Emits.refl

/-- A step that handles an envelope of `c` answers that one at most. -/
theorem step_answers (hw : w.Sound) (e : Envelope) :
    World.Answers c e.reqID w (w.step { op := .receive c e, env }) := by
  simp only [step]
  split_ifs with hs
  · exact (receive_answers e (hw.hub.business (serving_iff.1 hs).1)).1
  · exact .of_mute Emits.refl

/-- Nobody becomes an observer but in an observe-join under its own id. -/
theorem step_business (hw : w.Sound) (hc : w.hub.isObserver c = false) {i : Input}
    (hi : ∀ k q p, i.op ≠ .observe k q (.join c p)) : (w.step i).hub.isObserver c = false := by
  have hturn := step_turn (i := i) hw
  generalize w.step i = w' at hturn ⊢
  generalize w.act i = a at hturn
  cases hturn with
  | quiet h => rw [h.hub]; exact hc
  | @connected d hop hd =>
    simp only [setHub_hub, Hub.isObserver, Hub.allocate, Function.update_apply]
    split_ifs
    · rfl
    · exact hc
  | served hop hs h hq =>
    rw [hq.hub, h.isObserver]
    exact hc
  | departed hop hs => exact ((cleanup_frame i.env.order hw.hub hs).2 c).trans hc
  | @called n hop =>
    have hsame : (w.runGoroutine n).hub = w.hub := by unfold runGoroutine; split <;> rfl
    rw [hsame]
    exact hc
  | @observed u k reqID username mode p r w' hop hu hl hgate hw' =>
    have huc : c ≠ u := by
      rintro rfl
      exact hi k reqID p hop
    have hhub : w'.hub = w.hub.withObserver u username r := by
      rw [hw']; exact observing_hub _ _ _ _
    rw [hhub, Hub.withObserver, Hub.isObserver_setClient (by rfl)]
    simp only [Hub.isObserver, Hub.addTo, Hub.setRoom_client, Hub.allocate,
      Function.update_of_ne huc]
    exact hc
  | watched ho h hq =>
    rw [hq.hub, h.isObserver]
    exact hc
  | unobserved h hq =>
    rw [hq.hub, h.hub.isObserver]
    exact hc

end Messages

end Meetkit
