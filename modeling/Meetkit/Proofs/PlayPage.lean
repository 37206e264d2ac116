import Meetkit.Model.PlayPage

/-! When the player page holds exactly the connection it shows. An invalidated pull
whose `playStream` resolves late takes the place of the newer one in `state.pull` before
it is dropped, and the newer connection is lost. -/

namespace Meetkit

namespace PlayPage

variable {s : PlayPage} {id id' : ℕ}

structure Sound (s : PlayPage) : Prop where
  fresh : ∀ {id}, s.newPull ≤ id → s.status id = .idle
  genLe : ∀ {id}, id < s.newPull → s.gen id ≤ s.pullGen
  genInj : ∀ {id id'}, id < s.newPull → id' < s.newPull → s.gen id = s.gen id' → id = id'
  opened : ∀ {id}, s.pcOpen id = true → s.status id = .resolved
  held : ∀ {id}, s.pull = some id → s.pcOpen id = true
  /-- While a pull that counts is in flight there is nothing in `state.pull`. -/
  waiting : ∀ {id}, s.status id = .inFlight → s.gen id = s.pullGen → s.pull = none

/-- Nothing is open but what the page shows, and it shows the last pull that counts. -/
structure Kept (s : PlayPage) : Prop where
  shown : ∀ {id}, s.pcOpen id = true → s.pull = some id
  current : ∀ {id}, s.status id = .resolved → s.gen id = s.pullGen → s.pull = some id

/-- A connection is open that the page has lost. -/
def Leaks (s : PlayPage) : Prop := ∃ id, s.pcOpen id = true ∧ s.pull ≠ some id

theorem invalidatePull_eq (s : PlayPage) : ∃ pcOpen,
    s.invalidatePull = { s with pull := none, pullGen := s.pullGen + 1, pulling := false, pcOpen } ∧
      ∀ id, pcOpen id = true ↔ s.pcOpen id = true ∧ s.pull ≠ some id := by
  cases hp : s.pull with
  | none =>
    refine ⟨s.pcOpen, ?_, fun id => ?_⟩
    · rw [invalidatePull, tearDownPull]
      simp only [hp]
    · simp
  | some j =>
    refine ⟨Function.update s.pcOpen j false, ?_, fun id => ?_⟩
    · rw [invalidatePull, tearDownPull]
      simp only [hp]
      rfl
    · rw [Function.update_apply]
      split_ifs with hid
      · simp [hid]
      · simp [Ne.symm hid]

theorem pull_invalidatePull : s.invalidatePull.pull = none := by
  obtain ⟨pcOpen, he, -⟩ := invalidatePull_eq s
  rw [he]

theorem Sound.lt (h : s.Sound) (hid : s.status id ≠ .idle) : id < s.newPull :=
  Nat.lt_of_not_le fun hle => hid (h.fresh hle)

theorem Sound.invalidatePull (h : s.Sound) : s.invalidatePull.Sound := by
  obtain ⟨pcOpen, he, hopen⟩ := invalidatePull_eq s
  rw [he]
  exact ⟨h.fresh, fun hid => Nat.le_trans (h.genLe hid) (Nat.le_succ _), h.genInj,
    fun hid => h.opened ((hopen _).1 hid).1, fun hp => (by cases hp), fun _ _ => rfl⟩

theorem Kept.invalidatePull (h : s.Kept) (hs : s.Sound) : s.invalidatePull.Kept := by
  obtain ⟨pcOpen, he, hopen⟩ := invalidatePull_eq s
  rw [he]
  refine ⟨fun {id} hid => ?_, fun {id} hid hgen => ?_⟩
  · obtain ⟨hid, hne⟩ := (hopen id).1 hid
    exact absurd (h.shown hid) hne
  · have hlt : id < s.newPull := hs.lt fun hidle => by
      rw [show s.status id = .resolved from hid] at hidle
      cases hidle
    have hle := hs.genLe hlt
    have hgen : s.gen id = s.pullGen + 1 := hgen
    omega

theorem Leaks.invalidatePull (h : s.Leaks) : s.invalidatePull.Leaks := by
  obtain ⟨pcOpen, he, hopen⟩ := invalidatePull_eq s
  obtain ⟨id, hid, hne⟩ := h
  rw [he]
  exact ⟨id, (hopen id).2 ⟨hid, hne⟩, fun hp => by cases hp⟩

theorem Sound.startPull (h : s.Sound) (hp : s.pull = none) : s.startPull.Sound := by
  rw [PlayPage.startPull]
  split_ifs
  · exact h
  have hlt : ∀ {id}, id < s.newPull + 1 → id ≠ s.newPull → id < s.newPull := by omega
  refine ⟨fun {id} hle => ?_, fun {id} hid => ?_, fun {id id'} hid hid' hgen => ?_,
    fun {id} hid => ?_, h.held, fun _ _ => hp⟩
  · have hle : s.newPull + 1 ≤ id := hle
    exact (Function.update_of_ne (by omega) _ _).trans (h.fresh (by omega))
  · change Function.update s.gen s.newPull (s.pullGen + 1) id ≤ s.pullGen + 1
    rw [Function.update_apply]
    split_ifs with he
    · exact Nat.le_refl _
    · exact Nat.le_trans (h.genLe (hlt hid he)) (Nat.le_succ _)
  · -- the generation of the new pull is higher than any before
    change Function.update s.gen s.newPull (s.pullGen + 1) id =
      Function.update s.gen s.newPull (s.pullGen + 1) id' at hgen
    rw [Function.update_apply, Function.update_apply] at hgen
    split_ifs at hgen with he he' he'
    · rw [he, he']
    · have hle := h.genLe (hlt hid' he')
      omega
    · have hle := h.genLe (hlt hid he)
      omega
    · exact h.genInj (hlt hid he) (hlt hid' he') hgen
  · have hres := h.opened hid
    refine (Function.update_of_ne ?_ _ _).trans hres
    rintro rfl
    rw [h.fresh (Nat.le_refl _)] at hres
    cases hres

theorem Kept.startPull (h : s.Kept) (hs : s.Sound) : s.startPull.Kept := by
  rw [PlayPage.startPull]
  split_ifs
  · exact h
  refine ⟨h.shown, fun {id} hid hgen => ?_⟩
  change Function.update s.status s.newPull .inFlight id = .resolved at hid
  change Function.update s.gen s.newPull (s.pullGen + 1) id = s.pullGen + 1 at hgen
  rw [Function.update_apply] at hid hgen
  split_ifs at hid hgen with he
  have hle := hs.genLe (hs.lt fun hidle => by
    rw [hid] at hidle
    cases hidle)
  omega

theorem Leaks.startPull (h : s.Leaks) : s.startPull.Leaks := by
  rw [PlayPage.startPull]
  split_ifs
  · exact h
  · exact h

/-- What tearing down and starting pulls keeps, whatever the page says meanwhile, every
handler keeps. -/
structure Stable (P : PlayPage → Prop) : Prop where
  invalidatePull : ∀ {s}, P s → P s.invalidatePull
  startPull : ∀ {s}, s.pull = none → P s → P s.startPull
  said : ∀ {s} (pulling shown : Bool) (alerts : ℕ), P s →
    P { s with pulling, pullErrorShown := shown, alerts }

theorem stable_sound : Stable Sound where
  invalidatePull h := h.invalidatePull
  startPull hp h := h.startPull hp
  said _ _ _ h := ⟨h.fresh, h.genLe, h.genInj, h.opened, h.held, h.waiting⟩

theorem stable_kept : Stable fun s => s.Sound ∧ s.Kept where
  invalidatePull h := ⟨h.1.invalidatePull, h.2.invalidatePull h.1⟩
  startPull hp h := ⟨h.1.startPull hp, h.2.startPull h.1⟩
  said pulling shown alerts h :=
    ⟨stable_sound.said pulling shown alerts h.1, ⟨h.2.shown, h.2.current⟩⟩

theorem stable_leaks : Stable Leaks where
  invalidatePull h := h.invalidatePull
  startPull _ h := h.startPull
  said _ _ _ h := h

namespace Stable

variable {P : PlayPage → Prop} (hP : Stable P)

include hP

theorem showPullError (h : P s) : P s.showPullError := by
  rw [PlayPage.showPullError]
  split_ifs
  · exact h
  · exact hP.said _ _ _ (hP.invalidatePull (hP.said s.pulling true s.alerts h))

theorem finish (h : P s) : P (s.finish id) := by
  rw [PlayPage.finish]
  split_ifs
  · exact hP.said _ _ _ h
  · exact h

theorem handler (l : PlayLabel) (hplayed : ∀ id, l ≠ .played id) (hfailed : ∀ id, l ≠ .playFailed id)
    (h : P s) : P (s.step l) := by
  cases l with
  | toggleStream =>
    rw [step, toggleStream]
    split_ifs with hp
    · exact hP.invalidatePull h
    · exact hP.startPull (Option.not_isSome_iff_eq_none.1 hp) h
  | peerStreamStarted streamId =>
    rw [step, restartPull]
    split_ifs
    · exact h
    · exact hP.startPull pull_invalidatePull (hP.invalidatePull h)
    · exact h
  | peerStreamStopped streamId =>
    rw [step]
    split_ifs
    · exact hP.invalidatePull h
    · exact h
  | peerLeft =>
    rw [step]
    split_ifs
    · exact hP.invalidatePull h
    · exact h
  | connectionFailed id =>
    rw [step, connectionFailed]
    split_ifs
    · exact h
    · exact hP.showPullError h
    · exact h
  | alertClosed =>
    rw [step, alertClosed]
    split_ifs
    · exact h
    · exact hP.said _ _ _ h
  | leave => exact hP.invalidatePull h
  | played id => exact absurd rfl (hplayed id)
  | playFailed id => exact absurd rfl (hfailed id)

end Stable

/-! ### Pulls that come back -/

theorem ne_of_status {st st' : PlayStatus} (hid : s.status id = st) (hid' : s.status id' = st')
    (hne : st ≠ st') : id ≠ id' := by
  rintro rfl
  exact hne (hid.symm.trans hid')

/-- A pull that still counts has its connection shown. -/
theorem played_current (hgen : s.gen id = s.pullGen) : s.played id =
    { s with
      status := Function.update s.status id .resolved
      pcOpen := Function.update s.pcOpen id true
      pull := some id
      pulling := false } := by
  rw [played]
  dsimp only
  rw [if_neg (not_not.2 hgen), finish, if_pos hgen]

/-- A pull that was invalidated has its connection closed, whatever was in `state.pull`. -/
theorem played_stale (hgen : s.gen id ≠ s.pullGen) (hclosed : s.pcOpen id = false) : s.played id =
    { s with status := Function.update s.status id .resolved, pull := none } := by
  have hback : Function.update (Function.update s.pcOpen id true) id false = s.pcOpen := by
    rw [Function.update_idem, ← hclosed, Function.update_eq_self]
  rw [played]
  dsimp only
  rw [if_pos hgen, closePC]
  dsimp only
  rw [hback]

theorem Sound.closed (h : s.Sound) (hid : s.status id = .inFlight) : s.pcOpen id = false := by
  by_contra hopen
  have hres := h.opened (Bool.not_eq_false _ |>.mp hopen)
  rw [hid] at hres
  cases hres

theorem Sound.played (h : s.Sound) (hid : s.status id = .inFlight) : (s.played id).Sound := by
  have hlt : id < s.newPull := h.lt fun hidle => by
    rw [hid] at hidle
    cases hidle
  have hstatus : ∀ {j st}, Function.update s.status id .resolved j = st → st ≠ .resolved →
      j ≠ id ∧ s.status j = st := by
    intro j st hj hst
    rw [Function.update_apply] at hj
    split_ifs at hj with he
    · exact absurd hj.symm hst
    · exact ⟨he, hj⟩
  have hfresh : ∀ {j}, s.newPull ≤ j → Function.update s.status id .resolved j = .idle := by
    intro j hj
    rw [Function.update_of_ne (by omega)]
    exact h.fresh hj
  by_cases hgen : s.gen id = s.pullGen
  · rw [played_current hgen]
    refine ⟨hfresh, h.genLe, h.genInj, fun {j} hj => ?_, fun {j} hj => ?_, fun {j} hj hg => ?_⟩
    · by_cases he : j = id
      · rw [he]
        exact Function.update_self _ _ _
      · have hj : s.pcOpen j = true := (Function.update_of_ne he _ _).symm.trans hj
        exact (Function.update_of_ne he _ _).trans (h.opened hj)
    · cases hj
      exact Function.update_self _ _ _
    · obtain ⟨hne, hj⟩ := hstatus hj nofun
      have hltj : j < s.newPull := h.lt fun hidle => by
        rw [hj] at hidle
        cases hidle
      exact absurd (h.genInj hltj hlt (hg.trans hgen.symm)) hne
  · rw [played_stale hgen (h.closed hid)]
    refine ⟨hfresh, h.genLe, h.genInj, fun {j} hj => ?_, fun hj => (by cases hj), fun _ _ => rfl⟩
    refine (Function.update_of_ne ?_ _ _).trans (h.opened hj)
    exact ne_of_status (h.opened hj) hid nofun

/-- Nothing is lost when nothing is shown. -/
theorem Kept.played (h : s.Kept) (hs : s.Sound) (hid : s.status id = .inFlight)
    (hstale : s.gen id ≠ s.pullGen → s.pull = none) : (s.played id).Kept := by
  have hpull : s.pull = none := by
    by_cases hgen : s.gen id = s.pullGen
    · exact hs.waiting hid hgen
    · exact hstale hgen
  have hnone : ∀ j, s.pcOpen j ≠ true := by
    intro j hj
    have hj := h.shown hj
    rw [hpull] at hj
    cases hj
  by_cases hgen : s.gen id = s.pullGen
  · rw [played_current hgen]
    refine ⟨fun {j} hj => ?_, fun {j} hj hg => ?_⟩
    · by_cases he : j = id
      · rw [he]
      · exact absurd ((Function.update_of_ne he _ _).symm.trans hj) (hnone j)
    · by_cases he : j = id
      · rw [he]
      · have hj : s.status j = .resolved := (Function.update_of_ne he _ _).symm.trans hj
        have hcur := h.current hj hg
        rw [hpull] at hcur
        cases hcur
  · rw [played_stale hgen (hs.closed hid)]
    refine ⟨fun hj => absurd hj (hnone _), fun {j} hj hg => ?_⟩
    have hne : j ≠ id := by
      rintro rfl
      exact hgen hg
    have hj : s.status j = .resolved := (Function.update_of_ne hne _ _).symm.trans hj
    have hcur := h.current hj hg
    rw [hpull] at hcur
    cases hcur

theorem Leaks.played (h : s.Leaks) (hs : s.Sound) (hid : s.status id = .inFlight) :
    (s.played id).Leaks := by
  obtain ⟨j, hj, hne⟩ := h
  have hji : j ≠ id := ne_of_status (hs.opened hj) hid nofun
  by_cases hgen : s.gen id = s.pullGen
  · rw [played_current hgen]
    refine ⟨j, (Function.update_of_ne hji _ _).trans hj, fun he => hji ?_⟩
    exact (Option.some.inj he).symm
  · rw [played_stale hgen (hs.closed hid)]
    exact ⟨j, hj, fun he => by cases he⟩

/-- What a stale pull finds in `state.pull` is lost. -/
theorem leaks_played (hs : s.Sound) (hid : s.status id = .inFlight) (hgen : s.gen id ≠ s.pullGen)
    (hpull : s.pull ≠ none) : (s.played id).Leaks := by
  obtain ⟨j, hj⟩ := Option.ne_none_iff_exists'.1 hpull
  rw [played_stale hgen (hs.closed hid)]
  exact ⟨j, hs.held hj, fun he => by cases he⟩

/-- A pull that fails leaves connections alone but for those that the error tears down. -/
theorem playFailed_rule {P : PlayPage → Prop} (hP : Stable P)
    (h : P { s with status := Function.update s.status id .rejected }) : P (s.playFailed id) := by
  rw [playFailed]
  dsimp only
  split_ifs
  · exact h
  · exact hP.finish (hP.showPullError h)

theorem Sound.rejected (h : s.Sound) (hid : s.status id = .inFlight) :
    Sound { s with status := Function.update s.status id .rejected } := by
  refine ⟨fun {j} hj => ?_, h.genLe, h.genInj, fun {j} hj => ?_, h.held, fun {j} hj hg => ?_⟩
  · have hlt : id < s.newPull := h.lt fun hidle => by
      rw [hid] at hidle
      cases hidle
    have hj : s.newPull ≤ j := hj
    exact (Function.update_of_ne (by omega) _ _).trans (h.fresh hj)
  · refine (Function.update_of_ne ?_ _ _).trans (h.opened hj)
    exact ne_of_status (h.opened hj) hid nofun
  · change Function.update s.status id .rejected j = .inFlight at hj
    rw [Function.update_apply] at hj
    split_ifs at hj
    exact h.waiting hj hg

theorem Kept.rejected (h : s.Kept) :
    Kept { s with status := Function.update s.status id .rejected } := by
  refine ⟨h.shown, fun {j} hj hg => ?_⟩
  change Function.update s.status id .rejected j = .resolved at hj
  rw [Function.update_apply] at hj
  split_ifs at hj
  exact h.current hj hg

/-! ### Runs -/

/-- No invalidated pull comes back while the page shows a connection. -/
def Timely (s : PlayPage) : PlayLabel → Prop
  | .played id => s.status id = .inFlight → s.gen id ≠ s.pullGen → s.pull = none
  | _ => True

/-- No pull is in flight. -/
def Quiet (s : PlayPage) : Prop := ∀ id, s.status id ≠ .inFlight

/-- Every connection that `playStream` returned and that is not closed is the one of
`state.pull`, and the last pull, if it succeeded and was not invalidated, is in
`state.pull`. -/
structure Exact (s : PlayPage) : Prop where
  shown : ∀ id, s.pcOpen id = true → s.pull = some id
  last : ∀ id, s.newPull = id + 1 → s.status id = .resolved → s.gen id = s.pullGen → s.pull = some id

theorem sound_step (l : PlayLabel) (h : s.Sound) : (s.step l).Sound := by
  cases l with
  | played id =>
    rw [step]
    split_ifs with hid
    · exact h.played hid
    · exact h
  | playFailed id =>
    rw [step]
    split_ifs with hid
    · exact playFailed_rule stable_sound (h.rejected hid)
    · exact h
  | toggleStream | peerStreamStarted | peerStreamStopped | peerLeft | connectionFailed
  | alertClosed | leave => exact stable_sound.handler _ nofun nofun h

theorem kept_step (l : PlayLabel) (hl : s.Timely l) (hs : s.Sound) (h : s.Kept) :
    (s.step l).Sound ∧ (s.step l).Kept := by
  cases l with
  | played id =>
    refine ⟨sound_step _ hs, ?_⟩
    rw [step]
    split_ifs with hid
    · exact h.played hs hid (hl hid)
    · exact h
  | playFailed id =>
    rw [step]
    split_ifs with hid
    · exact playFailed_rule stable_kept ⟨hs.rejected hid, h.rejected⟩
    · exact ⟨hs, h⟩
  | toggleStream | peerStreamStarted | peerStreamStopped | peerLeft | connectionFailed
  | alertClosed | leave => exact stable_kept.handler _ nofun nofun ⟨hs, h⟩

theorem leaks_step (l : PlayLabel) (hs : s.Sound) (h : s.Leaks) : (s.step l).Leaks := by
  cases l with
  | played id =>
    rw [step]
    split_ifs with hid
    · exact h.played hs hid
    · exact h
  | playFailed id =>
    rw [step]
    split_ifs with hid
    · exact playFailed_rule stable_leaks h
    · exact h
  | toggleStream | peerStreamStarted | peerStreamStopped | peerLeft | connectionFailed
  | alertClosed | leave => exact stable_leaks.handler _ nofun nofun h

theorem leaks_of_late (l : PlayLabel) (hl : ¬s.Timely l) (hs : s.Sound) : (s.step l).Leaks := by
  cases l with
  | played id =>
    have hlate : s.status id = .inFlight ∧ s.gen id ≠ s.pullGen ∧ s.pull ≠ none := by
      rw [Timely] at hl
      by_contra hnot
      exact hl fun hid hgen => by_contra fun hp => hnot ⟨hid, hgen, hp⟩
    obtain ⟨hid, hgen, hpull⟩ := hlate
    rw [step, if_pos hid]
    exact leaks_played hs hid hgen hpull
  | playFailed | toggleStream | peerStreamStarted | peerStreamStopped | peerLeft | connectionFailed
  | alertClosed | leave => exact absurd trivial hl

end PlayPage

/-- The page holds exactly the connection it shows if and only if no invalidated pull has
ever come back to a page that showed one, whether or not pulls are in flight. -/
theorem player_page_exact_iff (streamId : StreamID) (ls : List PlayLabel) :
    ((playPage streamId).run ls).Exact ↔ (playPage streamId).Guarded PlayPage.Timely ls := by
  have hsound : ∀ ls, ((playPage streamId).run ls).Sound := by
    refine Machine.run_invariant (P := PlayPage.Sound) ?_ fun s l h => PlayPage.sound_step l h
    exact ⟨fun _ => rfl, nofun, nofun, nofun, nofun, nofun⟩
  have hinit : (playPage streamId).init.Kept := ⟨nofun, nofun⟩
  constructor
  · intro hexact
    rcases Machine.guarded_or hsound hinit (fun s l hl hs h => (PlayPage.kept_step l hl hs h).2)
      (fun s l hl hs _ => PlayPage.leaks_of_late l hl hs) (fun s l hs h => PlayPage.leaks_step l hs h)
      ls with ⟨hguarded, -⟩ | ⟨id, hopen, hlost⟩
    · exact hguarded
    · exact absurd (hexact.shown id hopen) hlost
  · intro hguarded
    have hkept := Machine.guarded_invariant_of hsound hinit
      (fun s l hl hs h => (PlayPage.kept_step l hl hs h).2) hguarded
    exact ⟨fun id hopen => hkept.shown hopen, fun id _ hid hgen => hkept.current hid hgen⟩

/-- The publisher leaves while a pull is in flight, the user starts another one, which
succeeds, and then the first one comes back. -/
theorem late_pull_leaks :
    let s := (playPage "s").run [.toggleStream, .peerLeft, .toggleStream, .played 1, .played 0]
    s.Quiet ∧ ¬s.Exact := by
  refine ⟨?_, fun h => ?_⟩
  · rintro (_ | _ | id) <;> exact fun hid => by cases hid
  · cases h.shown 1 rfl

end Meetkit
