import Meetkit.Model.MediaToggle

/-! What a step of the toggles can do. A toggle that asks for a track lacks one of that
kind, so the connection it may replace has no sender of the kind, and publishing always
goes over a new connection. -/

namespace Meetkit

def ToggleAwait.inFlight : ToggleAwait → Option ℕ
  | .offer pc | .reply pc | .answer pc _ => some pc
  | .getUserMedia | .replaceTrack .. => none

/-- Both switches after a click on one. -/
def TrackKind.flip : TrackKind → Bool × Bool → Bool × Bool
  | .audio, (mic, cam) => (!mic, cam)
  | .video, (mic, cam) => (mic, !cam)

/-- The label is for a toggle that is suspended. -/
def MediaLabel.resumes : MediaLabel → Bool
  | .gotMedia _ | .replied _ | .fulfilled | .rejected => true
  | .click _ | .socketClosed | .mainPublished _ | .mainFailed => false

namespace MediaPage

variable {s : MediaPage} {k : TrackKind} {l : MediaLabel} {stream : List LocalTrack}

def flags (s : MediaPage) : Bool × Bool := (s.micOn, s.camOn)

def flip (s : MediaPage) (k : TrackKind) : MediaPage :=
  { s with micOn := (k.flip s.flags).1, camOn := (k.flip s.flags).2 }

/-- The connection whose publish a toggle awaits. -/
def inFlight (s : MediaPage) : Option ℕ := s.toggle.bind fun t => t.2.inFlight

/-- A new connection for the tracks there are. -/
def newPublication (s : MediaPage) : MediaPage :=
  { s with
    pc := Function.update s.pc s.newPC
      { senders := (s.localCamStream.getD []).map fun t => ⟨t.id, t.kind⟩ }
    newPC := s.newPC + 1 }

/-- The publication is announced as stopped and closed. -/
def dropPublication (s : MediaPage) : MediaPage :=
  match s.camPub with
  | none => s
  | some pub => (s.trySend (.streamStopped "cam" pub.streamId)).closePublishPC pub.pc

/-- What is sent is of a kind the page has a track of. -/
structure Stocked (s : MediaPage) : Prop where
  stream : s.localCamStream ≠ none
  senders : ∀ i, ∀ x ∈ (s.pc i).senders, s.getTracks x.kind ≠ []
  held : ∀ pub, s.camPub = some pub → pub.pc < s.newPC
  mainHeld : ∀ i, s.mainPC = some i → i < s.newPC

structure Sound (s : MediaPage) : Prop extends Stocked s where
  busy : s.mediaToggleBusy = s.toggle.isSome
  acquiring : ∀ k, s.toggle = some (k, .getUserMedia) → s.getTracks k = []
  replacing : ∀ k pub t rest, s.toggle ≠ some (k, .replaceTrack pub t rest)
  /-- The connection in flight is nobody else's yet, and open. -/
  inFlight : ∀ i, s.inFlight = some i → i < s.newPC ∧ (s.pc i).closed = false ∧
    s.mainPC ≠ some i ∧ ∀ pub, s.camPub = some pub → pub.pc ≠ i

/-! ### Publishing -/

theorem trySend_eq (s : MediaPage) (m : MediaMsg) :
    s.trySend m = { s with sent := if s.socketOpen then s.sent ++ [m] else s.sent } := by
  unfold trySend send?
  split_ifs <;> rfl

/-- The stream has a kind that no sender has. -/
theorem needsRepublish_of_new {senders : List TrackSender} {t : LocalTrack} (ht : t ∈ stream)
    (hnew : ∀ x ∈ senders, x.kind ≠ t.kind) : needsRepublish stream senders = true := by
  unfold needsRepublish
  rw [Bool.or_eq_true, List.any_eq_true]
  refine Or.inl ⟨t, ht, ?_⟩
  rw [Bool.not_eq_true', List.any_eq_false]
  intro x hx
  simpa using hnew x hx

theorem mem_getSenders {pc : PublishPC} {x : TrackSender} (hx : x ∈ pc.getSenders) :
    x ∈ pc.senders := by
  unfold PublishPC.getSenders at hx
  split_ifs at hx
  · cases hx
  · exact hx

theorem exists_of_getTracks (h : s.getTracks k ≠ []) :
    ∃ stream, s.localCamStream = some stream ∧ ∃ t ∈ stream, t.kind = k := by
  obtain ⟨t, ht⟩ := List.exists_mem_of_ne_nil _ h
  unfold getTracks at ht
  rw [List.mem_filter, decide_eq_true_eq] at ht
  cases hstream : s.localCamStream with
  | none =>
    rw [hstream] at ht
    cases ht.1
  | some stream =>
    rw [hstream] at ht
    exact ⟨stream, rfl, t, ht⟩

/-- With tracks of a kind that is not published yet, `ensureCamPublish` publishes over a
new connection. -/
theorem ensureCamPublish_eq (hk : s.getTracks k ≠ [])
    (hnew : ∀ pub, s.camPub = some pub → ∀ x ∈ (s.pc pub.pc).senders, x.kind ≠ k) :
    s.ensureCamPublish = .awaits s.dropPublication.newPublication (.offer s.newPC) := by
  obtain ⟨stream, hstream, t, ht, rfl⟩ := exists_of_getTracks hk
  have hne : stream ≠ [] := List.ne_nil_of_mem ht
  unfold ensureCamPublish
  simp only [hstream, if_neg hne]
  cases hpub : s.camPub with
  | none =>
    simp only [publishOrUpdateStream, publishStream, if_neg hne, hpub, dropPublication,
      newPublication, hstream]
    rfl
  | some pub =>
    have hneeds : needsRepublish stream (s.pc pub.pc).getSenders = true :=
      needsRepublish_of_new ht fun x hx => hnew pub hpub x (mem_getSenders hx)
    simp only [hneeds, if_true, trySend_eq, publishOrUpdateStream, publishStream, if_neg hne, hpub,
      dropPublication, newPublication, closePublishPC, hstream]
    rfl

/-! ### Steps -/

/-- Nothing on the page waits for the label. -/
def ignores (s : MediaPage) (l : MediaLabel) : Bool :=
  match l, s.toggle with
  | .click _, some _ => true
  | .gotMedia _, some (_, .getUserMedia) => false
  | .replied _, some (_, .reply _) => false
  | .fulfilled, some (_, .offer _) | .fulfilled, some (_, .answer ..) => false
  | .rejected, some _ => false
  | .click _, none | .socketClosed, _ => false
  | .mainPublished _, _ | .mainFailed, _ => s.mainPC.isNone
  | _, _ => true

/-- The toggle needs a promise before it can announce anything. -/
def awaits (s : MediaPage) (k : TrackKind) : Bool :=
  !s.flag k && ((s.getTracks k).isEmpty || s.camPub.isNone)

inductive Stepped (s : MediaPage) : MediaLabel → MediaPage → Prop
  | ignored {l : MediaLabel} (hl : s.ignores l = true) : Stepped s l s
  | closed : Stepped s .socketClosed { s with socketOpen := false }
  | mainPublished {pc : ℕ} {streamId : AnsweredID} (hpc : s.mainPC = some pc) :
      Stepped s (.mainPublished streamId) { s with camPub := some ⟨pc, streamId⟩, mainPC := none }
  | mainFailed {pc : ℕ} (hpc : s.mainPC = some pc) :
      Stepped s .mainFailed { s with mainPC := none, socketOpen := false }
  | acquiring {k : TrackKind} (hidle : s.toggle = none) (hwait : s.awaits k = true)
      (hnone : s.getTracks k = []) :
      Stepped s (.click k) ((s.flip k).setBusy.suspend k .getUserMedia)
  | publishing {k : TrackKind} (hidle : s.toggle = none) (hwait : s.awaits k = true)
      (hpub : s.camPub = none) :
      Stepped s (.click k)
        (((s.flip k).setEnabled k).newPublication.setBusy.suspend k (.offer s.newPC))
  | switched {k : TrackKind} (hidle : s.toggle = none) (hquick : s.awaits k = false) :
      Stepped s (.click k) ((s.flip k).setEnabled k).announce
  | acquired {k : TrackKind} (ht : s.toggle = some (k, .getUserMedia)) :
      Stepped s (.gotMedia true)
        ((s.addTrack k).dropPublication.newPublication.suspend k (.offer s.newPC))
  | requested {k : TrackKind} {pc : ℕ} (ht : s.toggle = some (k, .offer pc))
      (hopen : s.socketOpen = true) :
      Stepped s .fulfilled ((s.trySend (.publishOffer "cam")).suspend k (.reply pc))
  | replied {k : TrackKind} {pc : ℕ} {streamId : AnsweredID} (ht : s.toggle = some (k, .reply pc)) :
      Stepped s (.replied streamId) (s.suspend k (.answer pc streamId))
  | published {k : TrackKind} {pc : ℕ} {streamId : AnsweredID}
      (ht : s.toggle = some (k, .answer pc streamId)) :
      Stepped s .fulfilled (s.camPublished ⟨pc, streamId⟩).announce
  | noMedia {k : TrackKind} (ht : s.toggle = some (k, .getUserMedia)) :
      Stepped s (.gotMedia false) s.failed
  | notSent {k : TrackKind} {pc : ℕ} (ht : s.toggle = some (k, .offer pc))
      (hclosed : s.socketOpen = false) : Stepped s .fulfilled s.failed
  | rejected {k : TrackKind} {a : ToggleAwait} (ht : s.toggle = some (k, a)) :
      Stepped s .rejected s.failed

theorem Sound.idle (hs : s.Sound) (hidle : s.toggle = none) : s.mediaToggleBusy = false := by
  rw [hs.busy, hidle]
  rfl

theorem Sound.toggle_of_idle (hs : s.Sound) (hbusy : s.mediaToggleBusy = false) :
    s.toggle = none := by
  refine Option.not_isSome_iff_eq_none.1 ?_
  rw [← hs.busy, hbusy]
  exact Bool.false_ne_true

theorem ensureLocalCamStream_eq (hstream : s.localCamStream ≠ none) :
    s.ensureLocalCamStream = s := by
  obtain ⟨stream, hstream⟩ := Option.ne_none_iff_exists'.1 hstream
  unfold ensureLocalCamStream
  rw [hstream, Option.getD_some, ← hstream]

theorem announce_eq (s : MediaPage) : s.announce =
    { s with
      sent := if s.socketOpen then s.sent ++ [.mediaState s.micOn s.camOn] else s.sent
      mediaToggleBusy := false
      toggle := none } := by
  unfold announce send?
  by_cases hopen : s.socketOpen = true
  · simp only [if_pos hopen]
  · simp only [if_neg hopen]
    rfl

@[simp] theorem getTracks_setEnabled (s : MediaPage) (k k' : TrackKind) :
    ((s.setEnabled k).getTracks k').isEmpty = (s.getTracks k').isEmpty := by
  unfold getTracks setEnabled
  cases s.localCamStream with
  | none => rfl
  | some stream =>
    rw [Bool.eq_iff_iff]
    simp only [Option.map_some, Option.getD_some, List.isEmpty_iff, List.filter_eq_nil_iff,
      List.mem_map, forall_exists_index, and_imp, forall_apply_eq_imp_iff₂, decide_eq_true_eq]
    refine forall_congr' fun t => imp_congr_right fun _ => ?_
    split_ifs <;> rfl

theorem announce_setBusy (s : MediaPage) : s.setBusy.announce = s.announce := by
  rw [announce_eq, announce_eq]
  rfl

theorem click_stepped (hs : s.Sound) (k : TrackKind) : Stepped s (.click k) (s.click k) := by
  cases htoggle : s.toggle with
  | some t =>
    have hbusy : s.mediaToggleBusy = true := by rw [hs.busy, htoggle]; rfl
    rw [click, if_pos hbusy]
    exact .ignored (by simp only [ignores, htoggle])
  | none =>
    have hflip : s.setBusy.setFlag k (!s.flag k) = (s.flip k).setBusy := by cases k <;> rfl
    have htracks : (s.setBusy.getTracks k).isEmpty = (s.getTracks k).isEmpty := rfl
    have htracks' : ((s.flip k).setBusy.getTracks k).isEmpty = (s.getTracks k).isEmpty := rfl
    have hensure : s.setBusy.ensureLocalCamStream = s.setBusy := ensureLocalCamStream_eq hs.stream
    have hannounce : ((s.flip k).setBusy.setEnabled k).announce =
        ((s.flip k).setEnabled k).announce := announce_setBusy ((s.flip k).setEnabled k)
    rw [click, hs.idle htoggle, if_neg Bool.false_ne_true]
    dsimp only
    rw [hensure, ite_self, htracks, hflip, getTracks_setEnabled, htracks', hannounce]
    cases hflag : s.flag k with
    | true =>
      have hquick : s.awaits k = false := by rw [awaits, hflag]; rfl
      exact .switched htoggle hquick
    | false =>
      rw [hflag] at hflip
      cases hnone : (s.getTracks k).isEmpty with
      | true =>
        have hwait : s.awaits k = true := by rw [awaits, hflag, hnone]; rfl
        have hensure' : (s.setBusy.setFlag k true).ensureLocalCamStream = (s.flip k).setBusy := by
          rw [show true = !false from rfl, hflip]
          exact ensureLocalCamStream_eq hs.stream
        rw [hensure']
        exact .acquiring htoggle hwait (List.isEmpty_iff.1 hnone)
      | false =>
        cases hpub : s.camPub with
        | none =>
          have hwait : s.awaits k = true := by rw [awaits, hflag, hpub, Bool.or_comm]; rfl
          have hpub' : ((s.flip k).setBusy.setEnabled k).camPub = none := hpub
          have hk : ((s.flip k).setBusy.setEnabled k).getTracks k ≠ [] := by
            rw [ne_eq, ← List.isEmpty_iff, getTracks_setEnabled, htracks', hnone]
            exact Bool.false_ne_true
          rw [hpub', ensureCamPublish_eq hk (by simp [hpub'])]
          unfold dropPublication
          rw [hpub']
          exact .publishing htoggle hwait hpub
        | some pub =>
          have hquick : s.awaits k = false := by rw [awaits, hflag, hnone, hpub]; rfl
          have hpub' : ((s.flip k).setBusy.setEnabled k).camPub = some pub := hpub
          rw [hpub']
          exact .switched htoggle hquick

theorem getTracks_addTrack (hstream : s.localCamStream ≠ none) (k k' : TrackKind) :
    (s.addTrack k).getTracks k' =
      if k' = k then [⟨s.newTrack, k, s.flag k⟩] else s.getTracks k' := by
  obtain ⟨stream, hstream⟩ := Option.ne_none_iff_exists'.1 hstream
  unfold getTracks addTrack
  simp only [hstream, Option.map_some, Option.getD_some, List.filter_append, List.filter_filter]
  split_ifs with hk
  · subst hk
    simp
  · have hkind : ∀ t : LocalTrack, (decide (t.kind = k') && decide (t.kind ≠ k)) =
        decide (t.kind = k') := by
      intro t
      by_cases ht : t.kind = k' <;> simp [ht, hk]
    simp only [hkind]
    simp [Ne.symm hk]

theorem gotMedia_stepped (hs : s.Sound) (hasTrack : Bool) (ht : s.toggle = some (k, .getUserMedia)) :
    Stepped s (.gotMedia hasTrack) (s.resume k .getUserMedia (.gotMedia hasTrack)) := by
  cases hasTrack with
  | false => exact .noMedia ht
  | true =>
    have hk : (s.addTrack k).getTracks k ≠ [] := by
      rw [getTracks_addTrack hs.stream, if_pos rfl]
      exact List.cons_ne_nil _ _
    have hnew : ∀ pub, (s.addTrack k).camPub = some pub →
        ∀ x ∈ ((s.addTrack k).pc pub.pc).senders, x.kind ≠ k := by
      rintro pub - x hx rfl
      exact hs.senders _ x hx (hs.acquiring _ ht)
    have hpublish : s.resume k .getUserMedia (.gotMedia true) =
        proceed k (s.addTrack k).ensureCamPublish := rfl
    rw [hpublish, ensureCamPublish_eq hk hnew]
    exact .acquired ht

theorem fulfilled_stepped (hs : s.Sound) {a : ToggleAwait} (ht : s.toggle = some (k, a)) :
    Stepped s .fulfilled (s.resume k a .fulfilled) := by
  cases a with
  | getUserMedia => exact .ignored (by simp only [ignores, ht])
  | offer pc =>
    cases hopen : s.socketOpen with
    | false =>
      have hnot : s.resume k (.offer pc) .fulfilled = s.failed := by
        simp [resume, send?, hopen]
      rw [hnot]
      exact .notSent ht hopen
    | true =>
      have hsent : s.resume k (.offer pc) .fulfilled =
          (s.trySend (.publishOffer "cam")).suspend k (.reply pc) := by
        simp [resume, trySend, send?, hopen]
      rw [hsent]
      exact .requested ht hopen
  | reply pc => exact .ignored (by simp only [ignores, ht])
  | answer pc streamId => exact .published ht
  | replaceTrack pub t rest => exact absurd ht (hs.replacing k pub t rest)

theorem resume_stepped (hs : s.Sound) {a : ToggleAwait} (ht : s.toggle = some (k, a))
    (hl : l.resumes = true) : Stepped s l (s.resume k a l) := by
  cases l with
  | gotMedia hasTrack =>
    cases a with
    | getUserMedia => exact gotMedia_stepped hs hasTrack ht
    | _ => exact .ignored (by simp only [ignores, ht])
  | replied streamId =>
    cases a with
    | reply pc => exact .replied ht
    | _ => exact .ignored (by simp only [ignores, ht])
  | fulfilled => exact fulfilled_stepped hs ht
  | rejected =>
    have hfail : s.resume k a .rejected = s.failed := by cases a <;> rfl
    rw [hfail]
    exact .rejected ht
  | click | socketClosed | mainPublished | mainFailed => cases hl

theorem step_resumes (hl : l.resumes = true) : s.step l =
    match s.toggle with
    | none => s
    | some (k, a) => s.resume k a l := by
  cases l with
  | gotMedia | replied | fulfilled | rejected => rfl
  | click | socketClosed | mainPublished | mainFailed => cases hl

theorem ignores_resumes (hl : l.resumes = true) (ht : s.toggle = none) : s.ignores l = true := by
  cases l with
  | gotMedia | replied | fulfilled | rejected => simp only [ignores, ht]
  | click | socketClosed | mainPublished | mainFailed => cases hl

theorem step_stepped (hs : s.Sound) (l : MediaLabel) : Stepped s l (s.step l) := by
  cases hl : l.resumes with
  | true =>
    rw [step_resumes hl]
    cases ht : s.toggle with
    | none => exact .ignored (ignores_resumes hl ht)
    | some t => exact resume_stepped hs ht hl
  | false =>
    cases l with
    | click k => exact click_stepped hs k
    | socketClosed => exact .closed
    | mainPublished streamId =>
      cases hpc : s.mainPC with
      | none =>
        simp only [step, hpc]
        exact .ignored (by simp only [ignores, hpc]; rfl)
      | some pc =>
        simp only [step, hpc]
        exact .mainPublished hpc
    | mainFailed =>
      cases hpc : s.mainPC with
      | none =>
        simp only [step, hpc]
        exact .ignored (by simp only [ignores, hpc]; rfl)
      | some pc =>
        simp only [step, hpc]
        exact .mainFailed hpc
    | gotMedia | replied | fulfilled | rejected => cases hl

/-! ### The invariant -/

theorem getTracks_ne_nil {t : LocalTrack} (ht : t ∈ s.localCamStream.getD []) :
    s.getTracks t.kind ≠ [] :=
  List.ne_nil_of_mem (List.mem_filter.2 ⟨ht, decide_eq_true rfl⟩)

theorem Stocked.newPublication (h : s.Stocked) : s.newPublication.Stocked := by
  refine ⟨h.stream, fun i x hx => ?_, fun pub hpub => Nat.lt_succ_of_lt (h.held pub hpub),
    fun i hi => Nat.lt_succ_of_lt (h.mainHeld i hi)⟩
  change x ∈ (Function.update s.pc s.newPC _ i).senders at hx
  rw [Function.update_apply] at hx
  split_ifs at hx
  · obtain ⟨t, ht, rfl⟩ := List.mem_map.1 hx
    exact getTracks_ne_nil ht
  · exact h.senders i x hx

/-- The publication that is dropped is closed, and nothing else changes on a connection. -/
theorem dropPublication_eq (s : MediaPage) : ∃ pc sent, s.dropPublication = { s with pc, sent } ∧
    (∀ i, (pc i).senders = (s.pc i).senders) ∧
    (∀ i, (∀ pub, s.camPub = some pub → pub.pc ≠ i) → pc i = s.pc i) ∧
    (s.camPub = none → sent = s.sent) ∧
    ∀ pub, s.camPub = some pub → (pc pub.pc).closed = true ∧
      sent = (s.trySend (.streamStopped "cam" pub.streamId)).sent := by
  obtain hpub | ⟨pub, hpub⟩ := Option.eq_none_or_eq_some s.camPub
  · have he : s.dropPublication = s := by simp only [MediaPage.dropPublication, hpub]
    refine ⟨s.pc, s.sent, he, fun _ => rfl, fun _ _ => rfl, fun _ => rfl, fun pub h => ?_⟩
    rw [hpub] at h
    cases h
  · refine ⟨Function.update s.pc pub.pc { s.pc pub.pc with closed := true },
      (s.trySend (.streamStopped "cam" pub.streamId)).sent, ?_, fun i => ?_,
      fun i hi => Function.update_of_ne (Ne.symm (hi pub hpub)) _ _, fun h => ?_, fun pub' h => ?_⟩
    · simp only [MediaPage.dropPublication, hpub, closePublishPC, trySend_eq]
    · rw [Function.update_apply]
      split_ifs with hi
      · rw [hi]
      · rfl
    · rw [hpub] at h
      cases h
    · rw [hpub] at h
      obtain rfl := Option.some.inj h
      exact ⟨by rw [Function.update_self], rfl⟩

theorem Stocked.dropPublication (h : s.Stocked) : s.dropPublication.Stocked := by
  obtain ⟨pc, sent, he, hsenders, -⟩ := s.dropPublication_eq
  rw [he]
  refine ⟨h.stream, fun i x hx => ?_, h.held, h.mainHeld⟩
  rw [show _ = _ from hsenders i] at hx
  exact h.senders i x hx

theorem Stocked.addTrack (h : s.Stocked) (k : TrackKind) : (s.addTrack k).Stocked := by
  refine ⟨?_, fun i x hx => ?_, h.held, h.mainHeld⟩
  · obtain ⟨stream, hstream⟩ := Option.ne_none_iff_exists'.1 h.stream
    simp [MediaPage.addTrack, hstream]
  · rw [getTracks_addTrack h.stream]
    split_ifs
    · exact List.cons_ne_nil _ _
    · exact h.senders i x hx

theorem Stocked.switch (h : s.Stocked) (k : TrackKind) : ((s.flip k).setEnabled k).Stocked := by
  refine ⟨?_, fun i x hx => ?_, h.held, h.mainHeld⟩
  · obtain ⟨stream, hstream⟩ := Option.ne_none_iff_exists'.1 h.stream
    simp [MediaPage.setEnabled, MediaPage.flip, hstream]
  · rw [ne_eq, ← List.isEmpty_iff, getTracks_setEnabled, List.isEmpty_iff]
    exact h.senders i x hx

/-- No toggle is in progress. -/
theorem Stocked.idle (h : s.Stocked) (hbusy : s.mediaToggleBusy = false) (hidle : s.toggle = none) :
    s.Sound := by
  refine ⟨h, by rw [hbusy, hidle]; rfl, fun k hk => ?_, fun k pub t rest hk => ?_, fun i hi => ?_⟩
  · rw [hidle] at hk
    cases hk
  · rw [hidle] at hk
    cases hk
  · rw [MediaPage.inFlight, hidle] at hi
    cases hi

/-- A toggle begins to publish over a new connection. -/
theorem Stocked.offering (h : s.Stocked) (hbusy : s.mediaToggleBusy = true) (k : TrackKind) :
    (s.newPublication.suspend k (.offer s.newPC)).Sound := by
  refine ⟨⟨h.newPublication.stream, h.newPublication.senders, h.newPublication.held,
    h.newPublication.mainHeld⟩, hbusy, fun k' hk => (by cases hk), fun _ _ _ _ hk => (by cases hk),
    fun i hi => ?_⟩
  obtain rfl : s.newPC = i := Option.some.inj hi
  refine ⟨Nat.lt_succ_self _, ?_, fun hmain => ?_, fun pub hpub => Nat.ne_of_lt (h.held pub hpub)⟩
  · change (Function.update s.pc s.newPC _ s.newPC).closed = false
    rw [Function.update_self]
  · exact absurd (h.mainHeld _ hmain) (Nat.lt_irrefl _)

theorem Stocked.announce (h : s.Stocked) : s.announce.Sound := by
  rw [announce_eq]
  exact Stocked.idle ⟨h.stream, h.senders, h.held, h.mainHeld⟩ rfl rfl

theorem inFlight_of {a : ToggleAwait} (ht : s.toggle = some (k, a)) : s.inFlight = a.inFlight := by
  rw [inFlight, ht]
  rfl

theorem Sound.trySend (hs : s.Sound) (m : MediaMsg) : (s.trySend m).Sound := by
  rw [trySend_eq]
  exact ⟨⟨hs.stream, hs.senders, hs.held, hs.mainHeld⟩, hs.busy, hs.acquiring, hs.replacing,
    hs.inFlight⟩

/-- A publish goes on over its connection. -/
theorem Sound.goOn {a a' : ToggleAwait} {pc : ℕ} (hs : s.Sound) (ht : s.toggle = some (k, a))
    (ha : a.inFlight = some pc) (ha' : a'.inFlight = some pc) : (s.suspend k a').Sound := by
  refine ⟨⟨hs.stream, hs.senders, hs.held, hs.mainHeld⟩, hs.busy.trans (by rw [ht]; rfl),
    fun k' hk => ?_, fun k' pub t rest hk => ?_, fun i hi => ?_⟩
  · obtain rfl : a' = .getUserMedia := congrArg Prod.snd (Option.some.inj hk)
    cases ha'
  · obtain rfl : a' = .replaceTrack pub t rest := congrArg Prod.snd (Option.some.inj hk)
    cases ha'
  · have hi : a'.inFlight = some i := hi
    refine hs.inFlight i ?_
    rw [inFlight_of ht, ha, ← ha', hi]

theorem camPublished_eq (s : MediaPage) (pub : CamPub) : s.camPublished pub =
    { s with camPub := some pub, sent := (s.trySend (.streamStarted "cam" pub.streamId)).sent } := by
  simp only [camPublished, notifyCamStreamStarted, trySend_eq]

theorem Sound.stepped {s' : MediaPage} (hs : s.Sound) (h : Stepped s l s') : s'.Sound := by
  cases h with
  | ignored => exact hs
  | closed =>
    exact ⟨⟨hs.stream, hs.senders, hs.held, hs.mainHeld⟩, hs.busy, hs.acquiring, hs.replacing,
      hs.inFlight⟩
  | @mainPublished pc streamId hpc =>
    refine ⟨⟨hs.stream, hs.senders, fun pub hpub => ?_, fun i hi => (by cases hi)⟩, hs.busy,
      hs.acquiring, hs.replacing, fun i hi => ?_⟩
    · obtain rfl := Option.some.inj hpub
      exact hs.mainHeld _ hpc
    · obtain ⟨hlt, hopen, hmain, -⟩ := hs.inFlight i hi
      refine ⟨hlt, hopen, Option.some_ne_none _ |>.symm, fun pub hpub => ?_⟩
      obtain rfl := Option.some.inj hpub
      rintro rfl
      exact hmain hpc
  | mainFailed hpc =>
    refine ⟨⟨hs.stream, hs.senders, hs.held, fun i hi => (by cases hi)⟩, hs.busy, hs.acquiring,
      hs.replacing, fun i hi => ?_⟩
    obtain ⟨hlt, hopen, -, hpub⟩ := hs.inFlight i hi
    exact ⟨hlt, hopen, (Option.some_ne_none _).symm, hpub⟩
  | @acquiring k hidle hwait hnone =>
    refine ⟨⟨hs.stream, hs.senders, hs.held, hs.mainHeld⟩, rfl, fun k' hk => ?_,
      fun _ _ _ _ hk => (by cases hk), fun i hi => (by cases hi)⟩
    obtain rfl : k = k' := congrArg Prod.fst (Option.some.inj hk)
    exact hnone
  | @publishing k hidle hwait hpub =>
    have h := hs.toStocked.switch k
    exact Stocked.offering (s := ((s.flip k).setEnabled k).setBusy)
      ⟨h.stream, h.senders, h.held, h.mainHeld⟩ rfl k
  | switched => exact (hs.toStocked.switch _).announce
  | @acquired k ht =>
    obtain ⟨pc, sent, he, -⟩ := (s.addTrack k).dropPublication_eq
    have hbusy : (s.addTrack k).dropPublication.mediaToggleBusy = true := by
      rw [he]
      exact hs.busy.trans (by rw [ht]; rfl)
    have hpc : (s.addTrack k).dropPublication.newPC = s.newPC := by rw [he]; rfl
    rw [← hpc]
    exact (hs.toStocked.addTrack k).dropPublication.offering hbusy k
  | @requested k pc ht hopen =>
    have ht' : (s.trySend (.publishOffer "cam")).toggle = some (k, .offer pc) := by
      rw [trySend_eq]
      exact ht
    exact (hs.trySend _).goOn ht' rfl rfl
  | replied ht => exact hs.goOn ht rfl rfl
  | @published k pc streamId ht =>
    have hlt : pc < s.newPC := (hs.inFlight pc (inFlight_of ht)).1
    refine Stocked.announce ?_
    rw [camPublished_eq]
    refine ⟨hs.stream, hs.senders, fun pub hpub => ?_, hs.mainHeld⟩
    obtain rfl := Option.some.inj hpub
    exact hlt
  | noMedia | notSent | rejected =>
    exact Stocked.idle ⟨hs.stream, hs.senders, hs.held, hs.mainHeld⟩ rfl rfl

theorem main_sound (micOn camOn granted : Bool) : (main micOn camOn granted).Sound := by
  refine Stocked.idle ⟨Option.some_ne_none _, fun i x hx => ?_, fun pub hpub => (by cases hpub),
    fun i hi => ?_⟩ rfl rfl
  · by_cases hi : i = 0
    · rw [hi] at hx
      obtain ⟨t, ht, rfl⟩ := List.mem_map.1 hx
      exact getTracks_ne_nil ht
    · have hnone : (main micOn camOn granted).pc i = {} := if_neg hi
      rw [hnone] at hx
      cases hx
  · have hmain : (main micOn camOn granted).mainPC = none ∨
        (main micOn camOn granted).mainPC = some 0 := ite_eq_or_eq _ _ _
    rcases hmain with hmain | hmain
    · rw [hmain] at hi
      cases hi
    · obtain rfl := Option.some.inj (hmain.symm.trans hi)
      exact Nat.zero_lt_one

end MediaPage

end Meetkit
