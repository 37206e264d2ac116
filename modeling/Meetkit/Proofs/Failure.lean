import Meetkit.Proofs.Turn

/-! A message that fails, a join apart, leaves everything as it was. All that is
left of it in the log is a call to ZLM that failed, and the error that goes back. -/

namespace Meetkit

open World

/-- A call to ZLM on the request path that did not succeed. -/
def Event.zlmFailure : Event → Bool
  | .exchangedSDP _ _ _ _ ok | .startedRecord _ _ _ _ ok | .stoppedRecord _ _ _ _ ok => !ok
  | _ => false

/-- `v` is `w` after failed calls to ZLM: the same hub, goroutines and connections. -/
def World.Untouched (w v : World) : Prop :=
  ∃ es, (∀ x ∈ es, x.zlmFailure = true) ∧ v = w.emit es

section Untouched

variable {env : Env} {w v : World} {c : UserID} {reqID : String} {b : Body} {a : Act} {err : Err}

theorem World.Untouched.refl (w : World) : w.Untouched w := ⟨[], by simp, (emit_nil w).symm⟩

theorem World.Untouched.failed {x : Event} (hx : x.zlmFailure = true) : w.Untouched (w.emit [x]) :=
  ⟨[x], by simpa using hx, rfl⟩

theorem Handled.untouched (h : Handled env w c reqID b a (v, some err))
    (hb : ∀ p, b ≠ .join p) : w.Untouched v := by
  cases h with
  | refused => exact .refl w
  | misjoined | turnedAway => exact absurd rfl (hb _)
  | exchangeFailed => exact .failed rfl
  | unstopped => exact .refl w
  | @recordFailed start =>
    refine .failed ?_
    cases start <;> rfl

/-- An observer may only play; whatever else it sends is refused at once. -/
theorem dispatch_observer (ho : w.hub.isObserver c = true) (e : Envelope)
    (hb : ∀ p, e.body ≠ .join p) :
    (∃ err, dispatch env w c e = (w, some err)) ∨
      ∃ a, Handled env w c e.reqID e.body a (dispatch env w c e) := by
  obtain ⟨reqID, body⟩ := e
  cases body with
  | join p => exact absurd rfl (hb p)
  | leave => exact Or.inr ⟨_, .ignored (by simp)⟩
  | webrtcOffer p => exact Or.inr ⟨_, observerOffer_handled ho p⟩
  | unknown type => exact Or.inl ⟨_, rfl⟩
  | chat text => exact Or.inl ⟨_, if_pos ho⟩
  | mediaState p => exact Or.inl ⟨_, if_pos ho⟩
  | streamStarted p => exact Or.inl ⟨_, if_pos ho⟩
  | streamStopped p => exact Or.inl ⟨_, if_pos ho⟩
  | recordControl start p => exact Or.inl ⟨_, if_pos ho⟩

theorem dispatch_untouched {e : Envelope} (hb : ∀ p, e.body ≠ .join p)
    (herr : (dispatch env w c e).2 = some err) : w.Untouched (dispatch env w c e).1 := by
  have hhandled : ∀ a, Handled env w c e.reqID e.body a (dispatch env w c e) →
      w.Untouched (dispatch env w c e).1 := by
    intro a h
    rw [show dispatch env w c e = ((dispatch env w c e).1, some err) from Prod.ext rfl herr] at h
    exact h.untouched hb
  cases ho : w.hub.isObserver c with
  | false => exact hhandled _ (dispatch_handled e ho)
  | true =>
    have hcases : (∃ err, dispatch env w c e = (w, some err)) ∨
        ∃ a, Handled env w c e.reqID e.body a (dispatch env w c e) := dispatch_observer ho e hb
    obtain ⟨err', h⟩ | ⟨a, h⟩ := hcases
    · rw [h]; exact .refl w
    · exact hhandled a h

end Untouched

/-- If a message other than a join fails, nothing but a failed call to ZLM separates
the world from the one before it: the hub, the goroutines and the connections are the
same, and the events are no message, no audit line and no notice to the dashboard. A
business client is then sent the error with the request's id, an observer's connection
gets it as the answer to the request. -/
theorem failed_request_changes_nothing (env : Env) (w : World) (c : UserID) (e : Envelope)
    (err : Err) (hb : ∀ p, e.body ≠ .join p) :
    ((dispatch env w c e).2 = some err → ∃ es, (∀ x ∈ es, x.zlmFailure = true) ∧
      (dispatch env w c e).1 = w.emit es) ∧
    ((dispatch env (w.emit [.received c e.body]) c e).2 = some err →
      ∃ es, (∀ x ∈ es, x.zlmFailure = true) ∧
        receive env w c e = w.emit (.received c e.body :: es ++ .handled c (some err) ::
          if (w.hub.client c).closed then [] else [.sent c e.reqID (.error err)])) ∧
    (∀ k p, (w.conn k).client = some c → e.body = .webrtcOffer p →
      (dispatch env w c e).2 = some err → ∃ es, (∀ x ∈ es, x.zlmFailure = true) ∧
        observeReceive env w k e.reqID (.webrtcOffer p) = w.emit (es ++
          [.pushed k (if e.reqID ≠ "" then "error" else "observe-error") e.reqID (some err)])) := by
  refine ⟨fun herr => dispatch_untouched hb herr, fun herr => ?_, fun k p hc hp herr => ?_⟩
  · obtain ⟨es, hes, hv⟩ := dispatch_untouched hb herr
    refine ⟨es, hes, ?_⟩
    unfold receive
    generalize dispatch env (w.emit [.received c e.body]) c e = v at herr hv
    obtain ⟨v, result⟩ := v
    subst herr
    obtain rfl : v = (w.emit [.received c e.body]).emit es := hv
    have hsame : (((w.emit [.received c e.body]).emit es).emit [.handled c (some err)]) =
        w.emit (.received c e.body :: es ++ [.handled c (some err)]) := by
      rw [emit_emit, emit_emit]
      rfl
    dsimp only
    rw [hsame, World.send, emit_hub, emit_emit]
    by_cases hclosed : (w.hub.client c).closed = true
    · rw [if_pos hclosed, if_pos hclosed]
    · rw [if_neg hclosed, if_neg hclosed]
      simp
  · obtain ⟨es, hes, hv⟩ := dispatch_untouched hb herr
    refine ⟨es, hes, ?_⟩
    obtain ⟨reqID, body⟩ := e
    subst hp
    simp only [observeReceive, hc]
    generalize dispatch env w c ⟨reqID, .webrtcOffer p⟩ = v at herr hv
    obtain ⟨v, result⟩ := v
    subst herr
    obtain rfl : v = w.emit es := hv
    exact emit_emit _ _ _

/-- The exchange of a publisher's offer fails. -/
theorem failed_offer_is_answered_alone :
    let w := (server "").run [⟨.connect "a", {}⟩, ⟨.receive "a" ⟨"", .join (.ok { room := "r" })⟩, {}⟩]
    let e : Envelope := ⟨"7", .webrtcOffer (.ok { mode := "publish", kind := "cam", sdp := "o" })⟩
    let env : Env := { sdp := .error "zlm is away" }
    let err : Err := .wrapped "zlm sdp exchange" "zlm is away"
    ∃ es, (∀ x ∈ es, x.zlmFailure = true) ∧
      receive env w "a" e = w.emit (.received "a" e.body :: es ++ .handled "a" (some err) ::
        if (w.hub.client "a").closed then [] else [.sent "a" "7" (.error err)]) :=
  (failed_request_changes_nothing _ _ "a" _ _ (by simp)).2.1 (by decide +kernel)

end Meetkit
