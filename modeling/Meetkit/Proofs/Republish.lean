import Meetkit.Lib.Reader
import Meetkit.Proofs.MediaToggle

/-! What is left of a publication that a toggle replaces. It is announced as stopped and
closed before the new one is there, so when that fails the page keeps a closed connection. -/

namespace Meetkit

/-- The last `stream-started` or `stream-stopped` of the camera stream. -/
def camStreamReader : Reader MediaMsg (Option MediaMsg) where
  start := none
  next told m :=
    match m with
    | .streamStarted kind _ | .streamStopped kind _ => if kind = "cam" then some m else told
    | _ => told

namespace MediaPage

variable {s s' : MediaPage} {k : TrackKind} {l : MediaLabel}

def lastCamStream (s : MediaPage) : Option MediaMsg := camStreamReader.read s.sent

/-- The page last told the room that its camera stream has stopped. -/
def ToldStopped (s : MediaPage) : Prop := ∃ streamId, s.lastCamStream = some (.streamStopped "cam" streamId)

/-- What the page takes for its publication is open and not announced as stopped. -/
structure Attached (s : MediaPage) : Prop where
  isOpen : ∀ pub, s.camPub = some pub → (s.pc pub.pc).closed = false
  untold : s.camPub ≠ none → ¬s.ToldStopped

structure Kept (s : MediaPage) : Prop where
  mainOver : s.mainPC = none
  attached : s.inFlight = none → s.Attached
  unpublished : s.camPub = none → ¬s.ToldStopped
  /-- A publish in place of an earlier publication. -/
  closed : s.inFlight ≠ none → ∀ pub, s.camPub = some pub → (s.pc pub.pc).closed = true
  offered : ∀ k pc, s.toggle = some (k, .offer pc) → s.camPub ≠ none → s.socketOpen = true →
    s.ToldStopped
  requested : ∀ k a pc, s.toggle = some (k, a) → a = .reply pc ∨ (∃ streamId, a = .answer pc streamId) →
    s.camPub ≠ none → s.ToldStopped

/-- No publish in place of an earlier publication fails, and none succeeds unannounced. -/
def lasting (s : MediaPage) (l : MediaLabel) : Bool :=
  match l, s.toggle with
  | .fulfilled, some (_, .offer _) | .fulfilled, some (_, .answer ..) =>
    s.camPub.isNone || s.socketOpen
  | .rejected, some (_, a) => s.camPub.isNone || a.inFlight.isNone
  | _, _ => true

/-! ### What is announced -/

theorem lastCamStream_trySend (s : MediaPage) (m : MediaMsg) : (s.trySend m).lastCamStream =
    if s.socketOpen then camStreamReader.next s.lastCamStream m else s.lastCamStream := by
  rw [trySend_eq]
  unfold lastCamStream
  dsimp only
  split_ifs
  · rw [Reader.read_snoc]
  · rfl

theorem lastCamStream_ignored {m : MediaMsg} (hm : ∀ told, camStreamReader.next told m = told) :
    (s.trySend m).lastCamStream = s.lastCamStream := by
  rw [lastCamStream_trySend, hm, ite_self]

theorem toldStopped_congr (h : s'.lastCamStream = s.lastCamStream) :
    s'.ToldStopped ↔ s.ToldStopped := by
  unfold ToldStopped
  rw [h]

theorem toldStopped_of_stopped (hopen : s.socketOpen = true) (streamId : StreamID) :
    (s.trySend (.streamStopped "cam" streamId)).ToldStopped :=
  ⟨streamId, by rw [lastCamStream_trySend, if_pos hopen]; rfl⟩

/-- A `stream-started` takes a stop back, unless it is not sent. -/
theorem toldStopped_started (s : MediaPage) (streamId : StreamID) :
    (s.trySend (.streamStarted "cam" streamId)).ToldStopped ↔
      s.socketOpen = false ∧ s.ToldStopped := by
  unfold ToldStopped
  rw [lastCamStream_trySend]
  cases s.socketOpen with
  | false => simp
  | true => simp [camStreamReader]

theorem lastCamStream_camPublished (s : MediaPage) (pub : CamPub) :
    (s.camPublished pub).lastCamStream =
      (s.trySend (.streamStarted "cam" pub.streamId)).lastCamStream := by
  rw [camPublished_eq]
  rfl

theorem lastCamStream_announce (s : MediaPage) : s.announce.lastCamStream = s.lastCamStream := by
  have hsent : s.announce.sent = (s.trySend (.mediaState s.micOn s.camOn)).sent := by
    rw [announce_eq, trySend_eq]
  unfold lastCamStream
  rw [hsent]
  exact lastCamStream_ignored fun _ => rfl

/-! ### One step -/

theorem Attached.congr (h : s.Attached) (hpub : s'.camPub = s.camPub) (hpc : s'.pc = s.pc)
    (hsent : s'.lastCamStream = s.lastCamStream) : s'.Attached := by
  refine ⟨fun pub hp => ?_, fun hp => ?_⟩
  · rw [hpc]
    exact h.isOpen pub (hpub ▸ hp)
  · rw [toldStopped_congr hsent]
    exact h.untold (hpub ▸ hp)

/-- Where no publish is in flight there is nothing else to keep. -/
theorem Kept.quiet (hmain : s.mainPC = none) (hquiet : s.inFlight = none) (h : s.Attached)
    (hnone : s.camPub = none → ¬s.ToldStopped) : s.Kept := by
  refine ⟨hmain, fun _ => h, hnone, fun hne => absurd hquiet hne, fun k pc ht => ?_,
    fun k a pc ht ha => ?_⟩
  · rw [inFlight_of ht] at hquiet
    cases hquiet
  · rw [inFlight_of ht] at hquiet
    rcases ha with rfl | ⟨streamId, rfl⟩ <;> cases hquiet

theorem Kept.unpublishedPage (hmain : s.mainPC = none) (hpub : s.camPub = none)
    (h : ¬s.ToldStopped) : s.Kept := by
  refine ⟨hmain, fun _ => ⟨fun pub hp => ?_, fun hne => absurd hpub hne⟩, fun _ => h,
    fun _ pub hp => ?_, fun _ _ _ hne => absurd hpub hne, fun _ _ _ _ _ hne => absurd hpub hne⟩
  · rw [hpub] at hp
    cases hp
  · rw [hpub] at hp
    cases hp

/-- The end of a toggle that publishes nothing, or has published. -/
theorem Kept.announce (hmain : s.mainPC = none) (h : s.Attached)
    (hnone : s.camPub = none → ¬s.ToldStopped) : s.announce.Kept := by
  have hlast := s.lastCamStream_announce
  have hpub : s.announce.camPub = s.camPub := by rw [announce_eq]
  refine Kept.quiet ?_ ?_ (h.congr hpub ?_ hlast) fun hp => ?_
  · rw [announce_eq]
    exact hmain
  · rw [announce_eq]
    rfl
  · rw [announce_eq]
  · rw [toldStopped_congr hlast]
    exact hnone (hpub ▸ hp)

/-- A publish in place of an earlier publication has sent its offer. -/
theorem Kept.waiting {a : ToggleAwait} (h : s.Kept) (hfly : s.inFlight ≠ none)
    (htold : s.camPub ≠ none → s.ToldStopped) (hmain : s'.mainPC = s.mainPC)
    (hpub : s'.camPub = s.camPub) (hpc : s'.pc = s.pc) (hsent : s'.lastCamStream = s.lastCamStream)
    (ha : a.inFlight ≠ none) (hoffer : ∀ pc, a ≠ .offer pc) : (s'.suspend k a).Kept := by
  have hlast : (s'.suspend k a).lastCamStream = s.lastCamStream := hsent
  refine ⟨hmain.trans h.mainOver, fun hq => absurd hq ha, fun hp => ?_, fun _ pub hp => ?_,
    fun k' pc ht => ?_, fun _ _ _ _ _ hne => ?_⟩
  · rw [toldStopped_congr hlast]
    exact h.unpublished (hpub ▸ hp)
  · change (s'.pc pub.pc).closed = true
    rw [hpc]
    exact h.closed hfly pub (hpub ▸ hp)
  · exact absurd (congrArg Prod.snd (Option.some.inj ht)) (hoffer pc)
  · rw [toldStopped_congr hlast]
    exact htold (hpub ▸ hne)

/-- A publish begins over a new connection, and what there was is announced as stopped
and closed. -/
theorem Kept.dropped (h : s.Kept) (hheld : ∀ pub, s.camPub = some pub → pub.pc < s.newPC) :
    (s.dropPublication.newPublication.suspend k (.offer s.newPC)).Kept := by
  obtain ⟨pc, sent, he, -, -, hnone, hsome⟩ := s.dropPublication_eq
  rw [he]
  obtain hpub | ⟨pub, hpub⟩ := Option.eq_none_or_eq_some s.camPub
  · rw [hnone hpub]
    exact Kept.unpublishedPage h.mainOver hpub (h.unpublished hpub)
  · obtain ⟨hclosed, hsent⟩ := hsome pub hpub
    rw [hsent]
    refine ⟨h.mainOver, fun hq => (by cases hq), fun hp => ?_, fun _ pub' hp => ?_,
      fun _ _ _ _ hopen => toldStopped_of_stopped (s := s) hopen pub.streamId, fun k' a pc' ht ha => ?_⟩
    · cases hpub.symm.trans hp
    · obtain rfl : pub = pub' := Option.some.inj (hpub.symm.trans hp)
      change (Function.update pc s.newPC _ pub.pc).closed = true
      rw [Function.update_of_ne (Nat.ne_of_lt (hheld pub hpub))]
      exact hclosed
    · obtain rfl : .offer s.newPC = a := congrArg Prod.snd (Option.some.inj ht)
      rcases ha with ha | ⟨streamId, ha⟩ <;> cases ha

theorem Kept.stepped (h : s.Kept) (hs : s.Sound) (hok : s.lasting l = true)
    (hstep : Stepped s l s') : s'.Kept := by
  cases hstep with
  | ignored => exact h
  | closed =>
    exact ⟨h.mainOver, fun hq => (h.attached hq).congr rfl rfl rfl, h.unpublished, h.closed,
      fun _ _ _ _ hopen => (by cases hopen), h.requested⟩
  | mainPublished hpc | mainFailed hpc =>
    rw [h.mainOver] at hpc
    cases hpc
  | @acquiring k hidle =>
    have hquiet : s.inFlight = none := by rw [MediaPage.inFlight, hidle]; rfl
    exact Kept.quiet h.mainOver rfl ((h.attached hquiet).congr rfl rfl rfl) h.unpublished
  | publishing hidle hwait hpub =>
    exact Kept.unpublishedPage h.mainOver hpub (h.unpublished hpub)
  | @switched k hidle =>
    have hquiet : s.inFlight = none := by rw [MediaPage.inFlight, hidle]; rfl
    exact Kept.announce h.mainOver ((h.attached hquiet).congr rfl rfl rfl) h.unpublished
  | @acquired k ht =>
    have hadd : (s.addTrack k).Kept :=
      ⟨h.mainOver, fun hq => (h.attached hq).congr rfl rfl rfl, h.unpublished, h.closed, h.offered,
        h.requested⟩
    exact hadd.dropped hs.held
  | @requested k pc ht hopen =>
    have hfly : s.inFlight ≠ none := by rw [inFlight_of ht]; exact Option.some_ne_none _
    refine h.waiting hfly (fun hne => h.offered k pc ht hne hopen) ?_ ?_ ?_ ?_
      (Option.some_ne_none _) fun _ ha => (by cases ha)
    · rw [trySend_eq]
    · rw [trySend_eq]
    · rw [trySend_eq]
    · exact lastCamStream_ignored fun _ => rfl
  | @replied k pc streamId ht =>
    have hfly : s.inFlight ≠ none := by rw [inFlight_of ht]; exact Option.some_ne_none _
    exact h.waiting hfly (h.requested k _ pc ht (Or.inl rfl)) rfl rfl rfl rfl
      (Option.some_ne_none _) fun _ ha => (by cases ha)
  | @published k pc streamId ht =>
    simp only [lasting, ht, Bool.or_eq_true, Option.isNone_iff_eq_none] at hok
    have heq := camPublished_eq s ⟨pc, streamId⟩
    have hmain : (s.camPublished ⟨pc, streamId⟩).mainPC = none := by rw [heq]; exact h.mainOver
    have hpub : (s.camPublished ⟨pc, streamId⟩).camPub = some ⟨pc, streamId⟩ := by rw [heq]
    refine Kept.announce hmain ⟨fun pub hp => ?_, fun _ => ?_⟩ fun hnone => ?_
    · obtain rfl := Option.some.inj (hpub.symm.trans hp)
      rw [heq]
      exact (hs.inFlight pc (inFlight_of ht)).2.1
    · rw [toldStopped_congr (lastCamStream_camPublished s _), toldStopped_started]
      rintro ⟨hclosed, htold⟩
      rcases hok with hnone | hopen
      · exact h.unpublished hnone htold
      · rw [hclosed] at hopen
        cases hopen
    · rw [hpub] at hnone
      cases hnone
  | noMedia ht =>
    have hquiet : s.inFlight = none := inFlight_of ht
    exact Kept.quiet h.mainOver rfl ((h.attached hquiet).congr rfl rfl rfl) h.unpublished
  | notSent ht hclosed =>
    simp only [lasting, ht, hclosed, Bool.or_false, Option.isNone_iff_eq_none] at hok
    exact Kept.unpublishedPage h.mainOver hok (h.unpublished hok)
  | rejected ht =>
    simp only [lasting, ht, Bool.or_eq_true, Option.isNone_iff_eq_none] at hok
    rcases hok with hpub | hquiet
    · exact Kept.unpublishedPage h.mainOver hpub (h.unpublished hpub)
    · have hquiet : s.inFlight = none := (inFlight_of ht).trans hquiet
      exact Kept.quiet h.mainOver rfl ((h.attached hquiet).congr rfl rfl rfl) h.unpublished

theorem lasting_of_ignores (h : s.ignores l = true) : s.lasting l = true := by
  unfold ignores at h
  unfold lasting
  split <;> simp_all

/-- A publish that fails leaves the page with what it had closed. -/
theorem Kept.failed (h : s.Kept) (hfly : s.inFlight ≠ none) (hpub : s.camPub ≠ none) :
    ¬s.failed.Attached := by
  intro hattached
  obtain ⟨pub, hpub⟩ := Option.ne_none_iff_exists'.1 hpub
  have hopen : (s.pc pub.pc).closed = false := hattached.isOpen pub hpub
  rw [h.closed hfly pub hpub] at hopen
  cases hopen

theorem Kept.needs (h : s.Kept) (hstep : Stepped s l s')
    (hattached : s'.mediaToggleBusy = false → s'.Attached) : s.lasting l = true := by
  cases hstep with
  | ignored hl => exact lasting_of_ignores hl
  | closed | mainPublished | mainFailed | acquiring | publishing | switched | acquired | replied
  | noMedia => simp only [lasting]
  | requested ht hopen => simp only [lasting, ht, hopen, Bool.or_true]
  | @published k pc streamId ht =>
    simp only [lasting, ht, Bool.or_eq_true, Option.isNone_iff_eq_none]
    by_contra hbad
    obtain ⟨hpub, hclosed⟩ := not_or.1 hbad
    -- the stop was sent, and the start was not
    have htold : s.ToldStopped := h.requested k _ pc ht (Or.inr ⟨streamId, rfl⟩) hpub
    have hidle : (s.camPublished ⟨pc, streamId⟩).announce.mediaToggleBusy = false := by
      rw [announce_eq]
    refine (hattached hidle).untold ?_ ?_
    · rw [announce_eq, camPublished_eq]
      exact Option.some_ne_none _
    · rw [toldStopped_congr (lastCamStream_announce _),
        toldStopped_congr (lastCamStream_camPublished s _), toldStopped_started]
      exact ⟨Bool.eq_false_iff.2 hclosed, htold⟩
  | notSent ht hclosed =>
    simp only [lasting, ht, hclosed, Bool.or_false, Option.isNone_iff_eq_none]
    by_contra hpub
    have hfly : s.inFlight ≠ none := by rw [inFlight_of ht]; exact Option.some_ne_none _
    exact h.failed hfly hpub (hattached rfl)
  | rejected ht =>
    simp only [lasting, ht, Bool.or_eq_true, Option.isNone_iff_eq_none]
    by_contra hbad
    obtain ⟨hpub, hfly⟩ := not_or.1 hbad
    rw [← inFlight_of ht] at hfly
    exact h.failed hfly hpub (hattached rfl)

theorem afterMain_kept (micOn camOn granted : Bool) (streamId : Option AnsweredID) :
    (afterMain micOn camOn granted streamId).Kept := by
  have hlast : (main micOn camOn granted).lastCamStream = none := rfl
  have huntold : ¬(main micOn camOn granted).ToldStopped := by
    rintro ⟨_, h⟩
    rw [hlast] at h
    cases h
  have hopen : ∀ i, ((main micOn camOn granted).pc i).closed = false := by
    intro i
    unfold main
    dsimp only
    by_cases hi : i = 0
    · rw [if_pos hi]
    · rw [if_neg hi]
  unfold afterMain
  cases streamId with
  | none =>
    cases hpc : (main micOn camOn granted).mainPC with
    | none =>
      simp only [Option.elim, step, hpc]
      exact Kept.unpublishedPage hpc rfl huntold
    | some pc =>
      simp only [Option.elim, step, hpc]
      exact Kept.unpublishedPage rfl rfl huntold
  | some streamId =>
    cases hpc : (main micOn camOn granted).mainPC with
    | none =>
      simp only [Option.elim, step, hpc]
      exact Kept.unpublishedPage hpc rfl huntold
    | some pc =>
      simp only [Option.elim, step, hpc]
      exact Kept.quiet rfl rfl ⟨fun pub _ => hopen pub.pc, fun _ => huntold⟩ fun _ => huntold

end MediaPage

open MediaPage

/-- Whenever no toggle is in progress the page's publication is open and not announced as
stopped, exactly in the runs in which no publish that takes another's place fails. -/
theorem republish_keeps_attached_iff (micOn camOn granted : Bool) (streamId : Option AnsweredID)
    (ls : List MediaLabel) :
    let page := mediaPage (afterMain micOn camOn granted streamId)
    (∀ pre, pre <+: ls → (page.run pre).mediaToggleBusy = false → (page.run pre).Attached) ↔
      page.Guarded (fun s l => s.lasting l = true) ls := by
  refine Machine.guarded_iff (Q := fun _ => True) (P := fun s : MediaPage => s.Sound ∧ s.Kept)
    (R := fun s : MediaPage => s.mediaToggleBusy = false → s.Attached) (fun _ => trivial)
    ?_ ?_ ?_ ?_ ls
  · exact ⟨(main_sound micOn camOn granted).stepped (step_stepped (main_sound _ _ _) _),
      afterMain_kept micOn camOn granted streamId⟩
  · intro s l hok _ ⟨hs, h⟩
    exact ⟨hs.stepped (step_stepped hs l), h.stepped hs hok (step_stepped hs l)⟩
  · exact fun s l _ h hattached => h.2.needs (step_stepped h.1 l) hattached
  · intro s ⟨hs, h⟩ hbusy
    exact h.attached (by rw [MediaPage.inFlight, hs.toggle_of_idle hbusy]; rfl)

/-- A camera is added to a microphone, and the server refuses the new offer. -/
theorem refused_republish_leaves_a_closed_publication :
    let s := (mediaPage (afterMain true false true (some ⟨"u_cam", by decide⟩))).run
      [.click .video, .gotMedia true, .fulfilled, .rejected]
    s.mediaToggleBusy = false ∧ s.camPub.map (·.pc) = some 0 ∧ (s.pc 0).closed = true ∧
      s.lastCamStream = some (.streamStopped "cam" "u_cam") ∧ ¬s.Attached := by
  intro s
  have hpub : s.camPub = some ⟨0, "u_cam", by decide⟩ := by decide
  have hclosed : (s.pc 0).closed = true := by decide
  refine ⟨by decide, by decide, hclosed, by decide, fun hattached => ?_⟩
  rw [hattached.isOpen _ hpub] at hclosed
  cases hclosed

end Meetkit
