import Meetkit.Lib.Reader
import Meetkit.Proofs.MediaToggle

/-! What the page last told the room about its microphone and camera. A toggle turns its
switch before it knows whether it can, and tells the room when it is done, so the two
agree until a toggle fails. -/

namespace Meetkit

theorem TrackKind.flip_flip (k : TrackKind) (x : Bool × Bool) : k.flip (k.flip x) = x := by
  obtain ⟨mic, cam⟩ := x
  cases k <;> simp [TrackKind.flip]

theorem TrackKind.flip_ne (k : TrackKind) (x : Bool × Bool) : k.flip x ≠ x := by
  obtain ⟨mic, cam⟩ := x
  cases k <;> simp [TrackKind.flip]

/-- The `micOn` and `camOn` of the last `media-state`. -/
def mediaStateReader : Reader MediaMsg (Option (Bool × Bool)) where
  start := none
  next told m :=
    match m with
    | .mediaState micOn camOn => some (micOn, camOn)
    | _ => told

namespace MediaPage

variable {s s' : MediaPage} {k : TrackKind} {l : MediaLabel}

def lastMediaState (s : MediaPage) : Option (Bool × Bool) := mediaStateReader.read s.sent

/-- The switches are as the page last told the room. -/
def InSync (s : MediaPage) : Prop := s.lastMediaState = some (s.micOn, s.camOn)

/-- A toggle in progress has turned its switch and told nobody. -/
structure Synced (s : MediaPage) : Prop where
  idle : s.toggle = none → s.lastMediaState = some s.flags
  running : ∀ k a, s.toggle = some (k, a) → s.lastMediaState = some (k.flip s.flags)

/-- The toggle that takes the step does not end in its `catch`. -/
def succeeds (s : MediaPage) (l : MediaLabel) : Bool :=
  match l, s.toggle with
  | .click k, none => s.awaits k || s.socketOpen
  | .gotMedia hasTrack, some (_, .getUserMedia) => hasTrack
  | .fulfilled, some (_, .offer _) | .fulfilled, some (_, .answer ..) => s.socketOpen
  | .rejected, some _ => false
  | _, _ => true

theorem lastMediaState_trySend {m : MediaMsg} (hm : ∀ micOn camOn, m ≠ .mediaState micOn camOn) :
    (s.trySend m).lastMediaState = s.lastMediaState := by
  rw [trySend_eq]
  unfold lastMediaState
  dsimp only
  split_ifs
  · rw [Reader.read_snoc]
    cases m with
    | mediaState micOn camOn => exact absurd rfl (hm micOn camOn)
    | _ => rfl
  · rfl

theorem lastMediaState_announce (s : MediaPage) : s.announce.lastMediaState =
    if s.socketOpen then some s.flags else s.lastMediaState := by
  rw [announce_eq]
  unfold lastMediaState
  dsimp only
  split_ifs
  · rw [Reader.read_snoc]
    rfl
  · rfl

theorem flags_announce (s : MediaPage) : s.announce.flags = s.flags := by
  rw [announce_eq]
  rfl

theorem lastMediaState_dropPublication (s : MediaPage) :
    s.dropPublication.lastMediaState = s.lastMediaState ∧ s.dropPublication.flags = s.flags := by
  obtain ⟨pc, sent, he, -, -, hnone, hsome⟩ := s.dropPublication_eq
  rw [he]
  refine ⟨?_, rfl⟩
  obtain hpub | ⟨pub, hpub⟩ := Option.eq_none_or_eq_some s.camPub
  · rw [hnone hpub]
    rfl
  · rw [(hsome pub hpub).2]
    exact lastMediaState_trySend fun _ _ h => by cases h

theorem lastMediaState_camPublished (s : MediaPage) (pub : CamPub) :
    (s.camPublished pub).lastMediaState = s.lastMediaState ∧
      (s.camPublished pub).flags = s.flags := by
  rw [camPublished_eq]
  exact ⟨lastMediaState_trySend fun _ _ h => (by cases h), rfl⟩

theorem Synced.toggling (hlast : s.lastMediaState = some (k.flip s.flags)) (a : ToggleAwait) :
    (s.suspend k a).Synced := by
  refine ⟨fun h => (by cases h), fun k' a' h => ?_⟩
  obtain ⟨rfl, -⟩ := Prod.mk.inj (Option.some.inj h)
  exact hlast

theorem Synced.announced (hopen : s.socketOpen = true) : s.announce.Synced := by
  refine ⟨fun _ => ?_, fun k a h => ?_⟩
  · rw [lastMediaState_announce, if_pos hopen, flags_announce]
  · rw [announce_eq] at h
    cases h

theorem Synced.stepped (h : s.Synced) (hok : s.succeeds l = true) (hstep : Stepped s l s') :
    s'.Synced := by
  cases hstep with
  | ignored => exact h
  | closed | mainPublished | mainFailed => exact ⟨h.idle, h.running⟩
  | @acquiring k hidle =>
    refine Synced.toggling ?_ _
    exact (h.idle hidle).trans (congrArg some (k.flip_flip s.flags).symm)
  | @publishing k hidle =>
    refine Synced.toggling ?_ _
    exact (h.idle hidle).trans (congrArg some (k.flip_flip s.flags).symm)
  | @switched k hidle hquick =>
    simp only [succeeds, hidle, hquick, Bool.false_or] at hok
    exact Synced.announced hok
  | @acquired k ht =>
    obtain ⟨hlast, hflags⟩ := lastMediaState_dropPublication (s.addTrack k)
    refine Synced.toggling ?_ _
    refine hlast.trans ((h.running k _ ht).trans ?_)
    exact congrArg (fun x => some (k.flip x)) hflags.symm
  | @requested k pc ht hopen =>
    refine Synced.toggling ?_ _
    rw [lastMediaState_trySend fun _ _ h => (by cases h), trySend_eq]
    exact h.running k _ ht
  | @replied k pc streamId ht => exact Synced.toggling (h.running k _ ht) _
  | @published k pc streamId ht =>
    simp only [succeeds, ht] at hok
    refine Synced.announced ?_
    rw [camPublished_eq]
    exact hok
  | noMedia ht | notSent ht hclosed | rejected ht => simp_all [succeeds]

theorem succeeds_of_ignores (h : s.ignores l = true) : s.succeeds l = true := by
  unfold ignores at h
  unfold succeeds
  split <;> simp_all

/-- A toggle that fails leaves its switch turned. -/
theorem Synced.failed (h : s.Synced) {a : ToggleAwait} (ht : s.toggle = some (k, a)) :
    ¬s.failed.InSync := by
  intro hsync
  have hflags : k.flip s.flags = s.flags :=
    Option.some.inj ((h.running k a ht).symm.trans hsync)
  exact k.flip_ne _ hflags

theorem announce_unsent (hclosed : s.socketOpen ≠ true)
    (hlast : s.lastMediaState = some (k.flip s.flags)) : ¬s.announce.InSync := by
  intro hsync
  have hsync : s.announce.lastMediaState = some s.announce.flags := hsync
  rw [lastMediaState_announce, if_neg hclosed, hlast, flags_announce] at hsync
  exact k.flip_ne _ (Option.some.inj hsync)

theorem announce_idle (s : MediaPage) : s.announce.mediaToggleBusy = false := by
  rw [announce_eq]

theorem Synced.needs (h : s.Synced) (hstep : Stepped s l s')
    (hsync : s'.mediaToggleBusy = false → s'.InSync) : s.succeeds l = true := by
  cases hstep with
  | ignored hl => exact succeeds_of_ignores hl
  | closed | mainPublished | mainFailed | replied => simp only [succeeds]
  | acquiring hidle hwait | publishing hidle hwait => simp only [succeeds, hidle, hwait, Bool.true_or]
  | @switched k hidle hquick =>
    simp only [succeeds, hidle, hquick, Bool.false_or]
    by_contra hclosed
    have hlast : ((s.flip k).setEnabled k).lastMediaState = some (k.flip (k.flip s.flags)) :=
      (h.idle hidle).trans (congrArg some (k.flip_flip s.flags).symm)
    exact announce_unsent (s := (s.flip k).setEnabled k) hclosed hlast (hsync (announce_idle _))
  | acquired ht => simp only [succeeds, ht]
  | requested ht hopen => simp only [succeeds, ht, hopen]
  | @published k pc streamId ht =>
    simp only [succeeds, ht]
    by_contra hclosed
    obtain ⟨hlast, hflags⟩ := lastMediaState_camPublished s ⟨pc, streamId⟩
    refine announce_unsent (k := k) ?_ ?_ (hsync (announce_idle _))
    · rw [camPublished_eq]
      exact hclosed
    · rw [hlast, hflags]
      exact h.running k _ ht
  | noMedia ht | notSent ht | rejected ht => exact absurd (hsync rfl) (h.failed ht)

end MediaPage

open MediaPage

/-- Whenever no toggle is in progress the switches are as the page last told the room,
exactly in the runs in which no toggle fails. -/
theorem media_state_announced_iff (micOn camOn granted : Bool) (ls : List MediaLabel) :
    let page := mediaPage (main micOn camOn granted)
    (∀ pre, pre <+: ls → (page.run pre).mediaToggleBusy = false → (page.run pre).InSync) ↔
      page.Guarded (fun s l => s.succeeds l = true) ls := by
  refine Machine.guarded_iff (Q := fun _ => True) (P := fun s : MediaPage => s.Sound ∧ s.Synced)
    (R := fun s : MediaPage => s.mediaToggleBusy = false → s.InSync) (fun _ => trivial) ?_ ?_ ?_ ?_ ls
  · exact ⟨main_sound micOn camOn granted, fun _ => rfl, fun k a h => (by cases h)⟩
  · intro s l hok _ ⟨hs, h⟩
    exact ⟨hs.stepped (step_stepped hs l), h.stepped hok (step_stepped hs l)⟩
  · exact fun s l _ h hsync => h.2.needs (step_stepped h.1 l) hsync
  · intro s ⟨hs, h⟩ hbusy
    exact h.idle (hs.toggle_of_idle hbusy)

/-- The microphone is refused. -/
theorem refused_microphone_shown_on :
    let s := (mediaPage (main false true true)).run [.click .audio, .rejected]
    s.mediaToggleBusy = false ∧ s.micOn = true ∧ s.lastMediaState = some (false, true) ∧
      ¬s.InSync := by
  intro s
  have hlast : s.lastMediaState = some (false, true) := by decide
  have hmic : s.micOn = true := by decide
  refine ⟨by decide, hmic, hlast, fun hsync => ?_⟩
  rw [InSync, hlast, hmic] at hsync
  cases hsync

end Meetkit
