import Meetkit.Proofs.Log
import Meetkit.Proofs.Runs

/-! A client controls only streams it pushed itself, as long as stream-started is
used for streams the sender has pushed. The handler stores whatever stream it is
told, so without that condition a client records and closes what others publish. -/

namespace Meetkit

open World

/-- ZLM answered a push of the stream by `c`. -/
def Pushed (log : List Event) (c : UserID) (app : RoomID) (stream : StreamID) : Prop :=
  .exchangedSDP c .push app stream true ∈ log

instance (log : List Event) (c : UserID) (app : RoomID) (stream : StreamID) :
    Decidable (Pushed log c app stream) := by
  unfold Pushed; infer_instance

/-- The event issues a StartRecord, StopRecord or CloseStream because of `c`. -/
def Event.Controls (e : Event) (c : UserID) (app : RoomID) (stream : StreamID) : Prop :=
  match e with
  | .startedRecord d app' _ stream' _ => d = c ∧ app' = app ∧ stream' = stream
  | .stoppedRecord d app' _ stream' _ => d = c ∧ app' = app ∧ stream' = stream
  | .spawned d calls => d = c ∧ ∃ call ∈ calls, call.app = app ∧ call.stream = stream
  | _ => False

instance (c : UserID) (app : RoomID) (stream : StreamID) :
    ∀ e : Event, Decidable (e.Controls c app stream)
  | .startedRecord .. | .stoppedRecord .. | .spawned .. => by
    dsimp only [Event.Controls]; infer_instance
  | .received .. | .handled .. | .sent .. | .joined .. | .departed .. | .exchangedSDP ..
  | .published .. | .called .. | .statsChanged | .audited .. | .pushed .. => .isFalse id

theorem Event.Controls.onBooks {e : Event} {c : UserID} {app : RoomID} {stream : StreamID}
    (h : e.Controls c app stream) : e.onBooks = true := by
  cases e with
  | startedRecord => rfl
  | stoppedRecord => rfl
  | spawned => rfl
  | _ => exact absurd h id

theorem Event.controls_recordCall {start : Bool} {c d : UserID} {app app' : RoomID} {kind : Kind}
    {stream stream' : StreamID} {ok : Bool} :
    (Event.recordCall start c app kind stream ok).Controls d app' stream' ↔
      c = d ∧ app = app' ∧ stream = stream' := by
  cases start <;> rfl

theorem Event.recordCall_ne_called (start : Bool) (c : UserID) (app : RoomID) (kind : Kind)
    (stream : StreamID) (ok : Bool) (d : UserID) (call : ZlmCall) :
    Event.recordCall start c app kind stream ok ≠ .called d call := by
  cases start <;> simp [Event.recordCall]

/-- A stream-started that is accepted names a stream its sender has pushed. -/
def Books.OwnStart (b : Books) : Act → Prop
  | .start c _ stream => ∀ app ∈ b.app c, Pushed b.history c app stream
  | _ => True

instance (b : Books) : ∀ a : Act, Decidable (b.OwnStart a)
  | .start .. => by dsimp only [Books.OwnStart]; infer_instance
  | .rest | .join .. | .publish .. | .stop .. | .record .. | .depart .. | .call .. =>
    .isTrue trivial

namespace Books

/-- Whatever is registered or still to be called was pushed by its owner. -/
structure Owned (b : Books) : Prop where
  streams : ∀ c app kind stream, b.app c = some app → (b.streams c).lookup kind = some stream →
    Pushed b.history c app stream
  pending : ∀ g ∈ b.pending, ∀ call ∈ g.calls, Pushed b.history g.owner call.app call.stream ∧
    ∃ calls, .spawned g.owner calls ∈ b.history ∧ call ∈ calls

namespace Owned

variable {b : Books} {c : UserID} {app : RoomID} {a : Act}

theorem note (h : b.Owned) (es : List Event) : (b.note es).Owned where
  streams c app kind stream happ hl := List.mem_append_left es (h.streams c app kind stream happ hl)
  pending g hg call hcall := by
    obtain ⟨hp, calls, hs, hc⟩ := h.pending g hg call hcall
    exact ⟨List.mem_append_left es hp, calls, List.mem_append_left es hs, hc⟩

theorem spawn (h : b.Owned) {calls : List ZlmCall}
    (hcalls : ∀ call ∈ calls, Pushed b.history c call.app call.stream) : (b.spawn c calls).Owned where
  streams c app kind stream happ hl := List.mem_append_left _ (h.streams c app kind stream happ hl)
  pending g hg call hcall := by
    rw [spawn_pending, List.mem_append, List.mem_singleton] at hg
    rcases hg with hg | rfl
    · obtain ⟨hp, calls', hs, hc⟩ := h.pending g hg call hcall
      exact ⟨List.mem_append_left _ hp, calls', List.mem_append_left _ hs, hc⟩
    · exact ⟨List.mem_append_left _ (hcalls call hcall), calls, by simp, hcall⟩

theorem setStreams (h : b.Owned) {m : GoMap Kind StreamID}
    (hm : ∀ app kind stream, b.app c = some app → m.lookup kind = some stream →
      Pushed b.history c app stream) : (b.setStreams c m).Owned where
  streams d app kind stream happ hl := by
    rw [setStreams_streams] at hl
    split_ifs at hl with hd
    · subst hd; exact hm app kind stream happ hl
    · exact h.streams d app kind stream happ hl
  pending := h.pending

theorem setRecordings (h : b.Owned) (m : GoMap Kind Bool) : (b.setRecordings c m).Owned :=
  ⟨h.streams, h.pending⟩

/-- What a departure asks for was pushed by the departing client. -/
theorem departureCalls (h : b.Owned) (happ : b.app c = some app)
    {entries : List (Kind × StreamID)}
    (hent : ∀ kind stream, (kind, stream) ∈ entries → (b.streams c).lookup kind = some stream) :
    ∀ call ∈ b.departureCalls c app entries, call.app = app ∧
      Pushed b.history c app call.stream := by
  intro call hcall
  rw [Books.departureCalls, List.mem_append] at hcall
  rcases hcall with hcall | hcall
  · obtain ⟨e, he, rfl⟩ := List.mem_map.1 hcall
    exact ⟨rfl, h.streams c app e.1 e.2 happ (hent _ _ (List.mem_filter.1 he).1)⟩
  · obtain ⟨e, he, rfl⟩ := List.mem_map.1 hcall
    exact ⟨rfl, h.streams c app e.1 e.2 happ (hent _ _ he)⟩

theorem effect {b' : Books} (h : b.Owned) (ht : b.Tidy) (hl : b.Lawful a) (hg : b.OwnStart a)
    (he : b.Effect a b') : b'.Owned := by
  cases he with
  | nothing => exact h
  | @joined c app =>
    refine ⟨fun d app' kind stream happ hlook => ?_, h.pending⟩
    simp only [Function.update_apply] at happ hlook
    split_ifs at happ with hd
    · -- a client that joins comes with no streams
      subst hd
      rw [(ht.outside d hl).1] at hlook
      cases hlook
    · exact h.streams d app' kind stream happ hlook
  | @published c app kind stream happ =>
    have h' := h.note [.exchangedSDP c .push app stream true, .published c app kind stream]
    refine h'.setStreams fun app' kind' stream' happ' hlook => ?_
    rw [GoMap.lookup_insert_iff] at hlook
    split_ifs at hlook
    · obtain rfl := Option.some.inj hlook
      obtain rfl := Option.some.inj (happ.symm.trans happ')
      simp [Pushed]
    · exact h'.streams c app' kind' stream' happ' hlook
  | @started c app kind stream happ =>
    refine h.setStreams fun app' kind' stream' happ' hlook => ?_
    rw [GoMap.lookup_insert_iff] at hlook
    split_ifs at hlook
    · obtain rfl := Option.some.inj hlook
      exact hg app' happ'
    · exact h.streams c app' kind' stream' happ' hlook
  | @unnamed c p hs =>
    refine h.setStreams fun app' kind' stream' happ' hlook => ?_
    exact h.streams c app' kind' stream' happ' (GoMap.lookup_erase_eq_some.1 hlook).2
  | @stopped c app p stream happ hk hs =>
    refine Owned.spawn (h.setStreams fun app' kind' stream' happ' hlook => ?_) fun call hcall => ?_
    · exact h.streams c app' kind' stream' happ' (GoMap.lookup_erase_eq_some.1 hlook).2
    · rw [List.mem_singleton.1 hcall]
      exact h.streams c app p.kind stream happ hs
  | recordFailed happ => exact h.note _
  | recorded happ => exact (h.note _).setRecordings _
  | @departed c app entries happ =>
    have hout : ({ b with app := Function.update b.app c none } : Books).Owned := by
      refine ⟨fun d app' kind stream happ' hlook => ?_, h.pending⟩
      simp only [Function.update_apply] at happ'
      split_ifs at happ'
      exact h.streams d app' kind stream happ' hlook
    have hclear := (hout.setStreams (c := c) (m := ∅) fun _ _ _ _ hlook => by cases hlook)
    refine Owned.note (Owned.spawn (hclear.setRecordings ∅) fun call hcall => ?_) _
    obtain ⟨h1, h2⟩ := h.departureCalls happ (fun k s => (hl k s).1) call hcall
    rw [h1]
    exact h2
  | @called n c call calls hn =>
    have hset : ({ b with pending := b.pending.set n ⟨c, calls⟩ } : Books).Owned := by
      refine ⟨h.streams, fun g hg call' hcall' => ?_⟩
      rcases List.mem_or_eq_of_mem_set hg with hg | rfl
      · exact h.pending g hg call' hcall'
      · exact h.pending _ (List.mem_of_getElem? hn) call' (List.mem_cons_of_mem _ hcall')
    exact hset.note _

/-- What performing an act adds to the history is controlled by a client of the app that pushed
the stream, or was asked for before. -/
theorem news {b' : Books} (h : b.Owned) (hl : b.Lawful a) (he : b.Effect a b') {es : List Event}
    (hes : b'.history = b.history ++ es) {e : Event} (hmem : e ∈ es) :
    (∀ c app stream, e.Controls c app stream → b.app c = some app ∧
      Pushed b.history c app stream) ∧
    ∀ c call, e = .called c call → Pushed b.history c call.app call.stream ∧
      ∃ calls, .spawned c calls ∈ b.history ∧ call ∈ calls := by
  have hself : ∀ m : List Event, b.history ++ m = b.history ++ es → e ∈ m := fun m hm =>
    List.append_cancel_left hm ▸ hmem
  have hrecord : ∀ {c app start kind stream ok}, b.app c = some app →
      (b.streams c).lookup kind = some stream → ∀ d app' stream',
      (Event.recordCall start c app kind stream ok).Controls d app' stream' →
        b.app d = some app' ∧ Pushed b.history d app' stream' := by
    intro c app start kind stream ok happ hlook d app' stream' hc
    obtain ⟨rfl, rfl, rfl⟩ := Event.controls_recordCall.1 hc
    exact ⟨happ, h.streams c app kind stream happ hlook⟩
  cases he with
  | nothing =>
    have := hself [] (by rw [List.append_nil]; exact hes)
    cases this
  | joined =>
    have := hself [] (by rw [List.append_nil]; exact hes)
    cases this
  | started happ =>
    have := hself [] (by rw [List.append_nil]; exact hes)
    cases this
  | unnamed hs =>
    have := hself [] (by rw [List.append_nil]; exact hes)
    cases this
  | @published c app kind stream happ =>
    have := hself _ hes
    rcases List.mem_cons.1 this with rfl | this
    · exact ⟨fun _ _ _ hc => absurd hc id, by simp⟩
    · rw [List.mem_singleton.1 this]
      exact ⟨fun _ _ _ hc => absurd hc id, by simp⟩
  | @stopped c app p stream happ hk hs =>
    rw [List.mem_singleton.1 (hself _ hes)]
    refine ⟨?_, by simp⟩
    rintro d app' stream' ⟨rfl, call, hcall, rfl, rfl⟩
    rw [List.mem_singleton.1 hcall]
    exact ⟨happ, h.streams c app p.kind stream happ hs⟩
  | @recordFailed c app start kind stream happ =>
    rw [List.mem_singleton.1 (hself _ hes)]
    exact ⟨hrecord happ hl, fun d call hc => (Event.recordCall_ne_called _ _ _ _ _ _ d call hc).elim⟩
  | @recorded c app start kind stream happ =>
    rw [List.mem_singleton.1 (hself _ hes)]
    exact ⟨hrecord happ hl, fun d call hc => (Event.recordCall_ne_called _ _ _ _ _ _ d call hc).elim⟩
  | @departed c app entries happ =>
    have := hself ([.spawned c (b.departureCalls c app entries)] ++ [.departed c app])
      (by rw [← List.append_assoc]; exact hes)
    rcases List.mem_cons.1 this with rfl | this
    · refine ⟨?_, by simp⟩
      rintro d app' stream' ⟨rfl, call, hcall, rfl, rfl⟩
      obtain ⟨h1, h2⟩ := h.departureCalls happ (fun k s => (hl k s).1) call hcall
      rw [h1]
      exact ⟨happ, h2⟩
    · rw [List.mem_singleton.1 this]
      exact ⟨fun _ _ _ hc => absurd hc id, by simp⟩
  | @called n c call calls hn =>
    rw [List.mem_singleton.1 (hself _ hes)]
    refine ⟨fun _ _ _ hc => absurd hc id, ?_⟩
    intro d call' hcall
    obtain ⟨rfl, rfl⟩ := Event.called.inj hcall
    exact h.pending _ (List.mem_of_getElem? hn) _ List.mem_cons_self

theorem step_news (h : b.Owned) (hl : b.Lawful a) {es : List Event}
    (hes : (b.step a).history = b.history ++ es) {e : Event} (hmem : e ∈ es) :
    (∀ c app stream, e.Controls c app stream → b.app c = some app ∧
      Pushed b.history c app stream) ∧
    ∀ c call, e = .called c call → Pushed b.history c call.app call.stream ∧
      ∃ calls, .spawned c calls ∈ b.history ∧ call ∈ calls := by
  have heff := perform_effect (b.note a.heard) a
  obtain ⟨fs, hfs⟩ := heff.history
  have hsplit : es = a.heard ++ fs := by
    rw [Books.step, hfs, note_history, List.append_assoc] at hes
    exact (List.append_cancel_left hes).symm
  -- a received message is neither a call nor a push
  have hold : ∀ f ∈ (b.note a.heard).history, (∀ c p, f ≠ .received c (.streamStopped (.ok p))) →
      f ∈ b.history := by
    intro f hf hne
    rcases List.mem_append.1 hf with hf | hf
    · exact hf
    · obtain ⟨c, p, rfl⟩ := mem_heard hf
      exact absurd rfl (hne c p)
  rw [hsplit, List.mem_append] at hmem
  rcases hmem with hmem | hmem
  · obtain ⟨c, p, rfl⟩ := mem_heard hmem
    exact ⟨fun _ _ _ hc => absurd hc id, by simp⟩
  · obtain ⟨h1, h2⟩ := (h.note a.heard).news (lawful_note.2 hl) heff hfs hmem
    refine ⟨fun c app stream hc => ?_, fun c call hcall => ?_⟩
    · exact ⟨(h1 c app stream hc).1, hold _ (h1 c app stream hc).2 (by simp)⟩
    · obtain ⟨hp, calls, hs, hcall'⟩ := h2 c call hcall
      exact ⟨hold _ hp (by simp), calls, hold _ hs (by simp), hcall'⟩

end Owned

/-- The invariant of a run of the books in which stream-started is used as intended. -/
theorem owned_of_guarded {acts : List Act}
    (hg : books.Guarded (fun b a => b.OwnStart a ∧ b.Tidy ∧ b.Lawful a) acts) :
    (books.run acts).Owned := by
  refine Machine.guarded_invariant (P := Owned) ?_ (fun b a hba h => ?_) hg
  · exact ⟨fun _ _ _ _ happ => (by cases happ), fun _ hg => absurd hg List.not_mem_nil⟩
  · obtain ⟨hstart, htidy, hlawful⟩ := hba
    have hheard : OwnStart (b.note a.heard) a := by
      cases a with
      | start c kind stream => exact fun app happ => List.mem_append_left _ (hstart app happ)
      | _ => trivial
    exact (h.note a.heard).effect (htidy.note _) (lawful_note.2 hlawful) hheard
      (perform_effect _ a)

end Books

/-! ### The server -/

section Server

variable {token : String} {is : List Input}

theorem server_owned
    (hg : (server token).Guarded (fun w i => w.books.OwnStart (w.act i)) is) :
    ((server token).run is).books.Owned := by
  obtain ⟨hb, hg'⟩ := server_books hg
  rw [hb]
  exact Books.owned_of_guarded hg'

/-- Every recording and closing call the step issues is for the app its client is in
and a stream the client pushed there; a goroutine only calls what was asked for. -/
def World.ControlsOwn (w : World) (i : Input) : Prop :=
  ∀ e ∈ w.news i,
    (∀ c app stream, e.Controls c app stream →
      w.hub.appOf c = some app ∧ Pushed w.log c app stream) ∧
    ∀ c call, e = .called c call → Pushed w.log c call.app call.stream ∧
      ∃ calls, .spawned c calls ∈ w.log ∧ call ∈ calls

theorem clients_control_own_streams
    (hg : (server token).Guarded (fun w i => w.books.OwnStart (w.act i)) is) (i : Input) :
    ((server token).run is).ControlsOwn i := by
  intro e he
  have hsound := server_sound token is
  have howned := server_owned hg
  generalize (server token).run is = w at *
  have hback : ∀ f : Event, f ∈ w.books.history → f ∈ w.log := fun f hf => (List.mem_filter.1 hf).1
  have hstep : e.onBooks = true → _ := fun hon =>
    howned.step_news (step_turn hsound).lawful (step_news hsound i) (List.mem_filter.2 ⟨he, hon⟩)
  refine ⟨fun c app stream hc => ?_, fun c call hcall => ?_⟩
  · obtain ⟨happ, hp⟩ := (hstep hc.onBooks).1 c app stream hc
    exact ⟨happ, hback _ hp⟩
  · subst hcall
    obtain ⟨hp, calls, hs, hcall⟩ := (hstep rfl).2 c call rfl
    exact ⟨hback _ hp, calls, hback _ hs, hcall⟩

/-- `a` announces the camera it has published, records it and leaves. -/
theorem own_camera_controlled :
    ((server "").run [.connect "a", .join "a" "r", .publish "a" "cam",
      .streamStarted "a" "cam" "user_a_cam", .record "a" true "cam"]).ControlsOwn (.disconnect "a") :=
  clients_control_own_streams (by decide) (.disconnect "a")

/-- `b` announces the camera of `a` as its own and starts recording it. -/
theorem foreign_camera_controlled :
    ¬ ∀ (token : String) (is : List Input) (i : Input), ((server token).run is).ControlsOwn i := by
  intro h
  have hb := h "" [.connect "a", .connect "b", .join "a" "r", .join "b" "r", .publish "a" "cam",
    .streamStarted "b" "x" "user_a_cam"] (.record "b" true "x")
    (.startedRecord "b" "r" "x" "user_a_cam" true) (by decide)
  have howner := hb.1 "b" "r" "user_a_cam" (by decide)
  exact absurd howner.2 (by decide)

end Server

end Meetkit
