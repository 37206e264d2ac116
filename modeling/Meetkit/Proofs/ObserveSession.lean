import Meetkit.Model.ObserveSession

/-! What a closed observe connection leaves behind. `closeConn` takes out the observer
it finds in `oc.client`, once; a join writes that field last. So nothing is left when
the look at the field falls outside the end of a join and no join adds after it. -/

namespace Meetkit

namespace CloseOnce

/-- `closeConn` has looked at `oc.client`. -/
def tested : CloseOnce → Bool
  | unused | running _ .test => false
  | _ => true

/-- `closeConn` is past `oc.client.LeaveRoom()`. -/
def emptied : CloseOnce → Bool
  | unused | running _ .test | running _ .call | running _ (.delete ..) => false
  | _ => true

end CloseOnce

namespace SessionLoop

def publishing : SessionLoop → Bool
  | publish .. => true
  | _ => false

/-- It neither publishes nor deletes an observer, nor clears `oc.client`. -/
def plain : SessionLoop → Bool
  | publish .. | leaveDelete .. | leaveClear => false
  | _ => true

/-- Past the nil test of a join. -/
def joining : SessionLoop → Bool
  | gate _ | add _ | publish .. => true
  | _ => false

end SessionLoop

namespace ObserveSession

/-- `closeConn` looks at `oc.client` when no observer is added but not written there,
and none is added after that. -/
def timely (s : ObserveSession) : SessionLabel → Bool
  | .run env =>
    match s.loop with
    | .add _ => !s.once.tested || env.newID ∈ s.used || env.found.isNone
    | _ => true
  | .closer =>
    match s.once with
    | .running false .test => !s.loop.publishing
    | _ => true
  | _ => true

structure Tidy (s : ObserveSession) : Prop where
  joining : s.loop.joining = true → s.client = none
  /-- An observer in a room is the one in `oc.client` or about to be, or somebody is
  about to delete it. -/
  placed : ∀ u r, s.place u = some r →
    (s.client = some u ∨ ∃ roomID, s.loop = .publish u roomID) ∧ s.room u = some r ∨
      s.loop = .leaveDelete u r ∨ ∃ b, s.once = .running b (.delete u r)
  loopDeletes : ∀ u r, s.loop = .leaveDelete u r →
    s.room u = none ∧ ∀ v, s.client = some v → v = u
  onceDeletes : ∀ b u r, s.once = .running b (.delete u r) →
    s.room u = none ∧ ∀ v, s.client = some v → v = u
  leaving : s.loop = .leaveClear → ∀ u r, s.place u = some r →
    ∃ b, s.once = .running b (.delete u r)
  tested : s.once.tested = true → s.loop.publishing = false
  emptied : s.once.emptied = true → ∀ u r, s.place u = some r → s.loop = .leaveDelete u r
  sendClosed : s.sendClosed = true → s.once.tested = true

section Steps

variable {s : ObserveSession}

theorem tested_of_emptied {o : CloseOnce} (h : o.emptied = true) : o.tested = true := by
  cases o with
  | unused => cases h
  | running b step => cases step <;> first | rfl | cases h
  | done => rfl

theorem not_publish {l : SessionLoop} (h : l.publishing = false) (u : UserID) (r : RoomID) :
    l ≠ .publish u r := by
  rintro rfl
  cases h

theorem plain_publishing {l : SessionLoop} (h : l.plain = true) : l.publishing = false := by
  cases l <;> first | rfl | cases h

theorem clearRoom_none {u v : UserID} (h : s.room v = none) : (s.clearRoom u).room v = none := by
  simp only [clearRoom, Function.update_apply]
  split_ifs
  · rfl
  · exact h

theorem place_delete {u v : UserID} {r t : RoomRef} (h : (s.delete u r).place v = some t) :
    s.place v = some t ∧ ¬(v = u ∧ t = r) := by
  unfold delete at h
  split_ifs at h with hu
  · simp only [Function.update_apply] at h
    split_ifs at h with hv
    exact ⟨h, fun hvt => hv hvt.1⟩
  · refine ⟨h, ?_⟩
    rintro ⟨rfl, rfl⟩
    exact hu h

@[simp] theorem delete_client (u : UserID) (r : RoomRef) : (s.delete u r).client = s.client := by
  unfold delete
  split_ifs <;> rfl

@[simp] theorem delete_room (u : UserID) (r : RoomRef) : (s.delete u r).room = s.room := by
  unfold delete
  split_ifs <;> rfl

@[simp] theorem delete_loop (u : UserID) (r : RoomRef) : (s.delete u r).loop = s.loop := by
  unfold delete
  split_ifs <;> rfl

@[simp] theorem delete_once (u : UserID) (r : RoomRef) : (s.delete u r).once = s.once := by
  unfold delete
  split_ifs <;> rfl

@[simp] theorem delete_sendClosed (u : UserID) (r : RoomRef) :
    (s.delete u r).sendClosed = s.sendClosed := by
  unfold delete
  split_ifs <;> rfl

namespace Tidy

/-- When no observer is published, whoever is in a room is being deleted. -/
theorem unpublished (ht : s.Tidy) (hclient : s.client = none) (hpub : s.loop.publishing = false)
    {u : UserID} {r : RoomRef} (hu : s.place u = some r) :
    s.loop = .leaveDelete u r ∨ ∃ b, s.once = .running b (.delete u r) := by
  rcases ht.placed u r hu with ⟨hc | ⟨roomID, hl⟩, -⟩ | h
  · rw [hclient] at hc
    cases hc
  · exact absurd hl (not_publish hpub u roomID)
  · exact h

/-- The readLoop goes on without adding, deleting or clearing anything. -/
theorem goto (ht : s.Tidy) {l : SessionLoop} (hold : s.loop.plain = true) (hnew : l.plain = true)
    (hjoin : l.joining = true → s.client = none) : Tidy { s with loop := l } where
  joining := hjoin
  placed u r hu := by
    rcases ht.placed u r hu with ⟨hc | ⟨roomID, hl⟩, hroom⟩ | hl | h
    · exact Or.inl ⟨Or.inl hc, hroom⟩
    · rw [hl] at hold
      cases hold
    · rw [hl] at hold
      cases hold
    · exact Or.inr (Or.inr h)
  loopDeletes u r hl := by
    obtain rfl : l = .leaveDelete u r := hl
    cases hnew
  onceDeletes := ht.onceDeletes
  leaving hl := by
    obtain rfl : l = .leaveClear := hl
    cases hnew
  tested _ := plain_publishing hnew
  emptied h u r hu := by
    have hl := ht.emptied h u r hu
    rw [hl] at hold
    cases hold
  sendClosed := ht.sendClosed

theorem push (ht : s.Tidy) {l : SessionLoop} (hold : s.loop.plain = true) (hnew : l.plain = true)
    (hjoin : l.joining = true → s.client = none) : (s.push l).Tidy := by
  unfold ObserveSession.push
  split_ifs
  · exact ht.goto hold rfl (by simp [SessionLoop.joining])
  · exact ht.goto hold hnew hjoin

theorem setOnce (ht : s.Tidy) {o : CloseOnce} (hold : ∀ b u r, s.once ≠ .running b (.delete u r))
    (hnew : ∀ b u r, o ≠ .running b (.delete u r))
    (htested : o.tested = true → s.loop.publishing = false)
    (hemptied : o.emptied = true → ∀ u r, s.place u = some r → s.loop = .leaveDelete u r)
    (hsend : s.sendClosed = true → o.tested = true) : Tidy { s with once := o } where
  joining := ht.joining
  placed u r hu :=
    (ht.placed u r hu).imp_right fun h => h.imp_right fun ⟨b, hb⟩ => absurd hb (hold b u r)
  loopDeletes := ht.loopDeletes
  onceDeletes b u r h := absurd h (hnew b u r)
  leaving hl u r hu := by
    obtain ⟨b, hb⟩ := ht.leaving hl u r hu
    exact absurd hb (hold b u r)
  tested := htested
  emptied := hemptied
  sendClosed := hsend

theorem opens (ht : s.Tidy) (honce : s.once = .unused) (b : Bool) :
    Tidy { s with once := .running b .test } := by
  refine ht.setOnce (fun _ _ _ h => ?_) (by simp) (fun h => by cases h) (fun h => by cases h) fun h => ?_
  · rw [honce] at h
    cases h
  · have huntested := ht.sendClosed h
    rw [honce] at huntested
    cases huntested

theorem closeCall (ht : s.Tidy) {b : Bool} {u : UserID} {r : RoomRef}
    (honce : s.once = .running b .call) (hpub : s.loop.publishing = false)
    (hclient : s.client = some u) (hroom : s.room u = some r) :
    Tidy { s.clearRoom u with once := .running b (.delete u r) } where
  joining := ht.joining
  placed v t hv := by
    rcases ht.placed v t hv with ⟨hc | ⟨roomID, hl⟩, hr⟩ | h | ⟨b', hb⟩
    · obtain rfl : u = v := Option.some.inj (hclient.symm.trans hc)
      obtain rfl : r = t := Option.some.inj (hroom.symm.trans hr)
      exact Or.inr (Or.inr ⟨b, rfl⟩)
    · exact absurd hl (not_publish hpub v roomID)
    · exact Or.inr (Or.inl h)
    · rw [honce] at hb
      cases hb
  loopDeletes v t hl := by
    obtain ⟨hnone, hv⟩ := ht.loopDeletes v t hl
    exact ⟨clearRoom_none hnone, hv⟩
  onceDeletes b' v t h := by
    injection h with _ h
    injection h with h _
    subst h
    exact ⟨Function.update_self _ _ _, fun w hw => Option.some.inj (hw.symm.trans hclient)⟩
  leaving hl v t hv := by
    obtain ⟨b', hb⟩ := ht.leaving hl v t hv
    rw [honce] at hb
    cases hb
  tested _ := hpub
  emptied h := by cases h
  sendClosed _ := rfl

theorem closeDelete (ht : s.Tidy) {b : Bool} {u : UserID} {r : RoomRef}
    (honce : s.once = .running b (.delete u r)) (hpub : s.loop.publishing = false) :
    Tidy { s.delete u r with once := .running b .clear } := by
  obtain ⟨hnone, hu⟩ := ht.onceDeletes b u r honce
  have hother : ∀ {v t} {b' : Bool}, s.once = .running b' (.delete v t) → v = u ∧ t = r := by
    intro v t b' hb
    rw [honce] at hb
    injection hb with _ hb
    injection hb with h1 h2
    exact ⟨h1.symm, h2.symm⟩
  -- nobody that is published is left in a room
  have hleft : ∀ v t, (s.delete u r).place v = some t → s.loop = .leaveDelete v t := by
    intro v t hv
    obtain ⟨hv', hne⟩ := place_delete hv
    rcases ht.placed v t hv' with ⟨hc | ⟨roomID, hl⟩, hr⟩ | h | ⟨b', hb⟩
    · rw [hu v hc, hnone] at hr
      cases hr
    · exact absurd hl (not_publish hpub v roomID)
    · exact h
    · exact absurd (hother hb) hne
  refine ⟨?_, fun v t hv => Or.inr (Or.inl ?_), ?_, fun b' v t h => ?_, fun hl v t hv => ?_,
    fun _ => ?_, fun _ v t hv => ?_, fun _ => rfl⟩
  · simpa using ht.joining
  · simpa using hleft v t hv
  · simpa using ht.loopDeletes
  · cases h
  · obtain ⟨hv', hne⟩ := place_delete hv
    obtain ⟨b', hb⟩ := ht.leaving (by simpa using hl) v t hv'
    exact absurd (hother hb) hne
  · simpa using hpub
  · simpa using hleft v t hv

theorem closeStep (ht : s.Tidy) {b : Bool} {step : CloseStep} (honce : s.once = .running b step)
    (htest : step = .test → s.loop.publishing = false) : (s.closeStep b step).Tidy := by
  have hpub : s.loop.publishing = false := by
    by_cases h : step = .test
    · exact htest h
    · exact ht.tested (by rw [honce]; cases step <;> first | rfl | exact absurd rfl h)
  have hdel : (∀ u r, step ≠ .delete u r) → ∀ b' u r, s.once ≠ .running b' (.delete u r) := by
    intro h b' u r hb
    rw [honce] at hb
    injection hb with _ hb
    exact h u r hb
  cases step with
  | test =>
    simp only [ObserveSession.closeStep]
    split
    · rename_i hclient
      refine ht.setOnce (hdel (by simp)) (by simp) (fun _ => hpub) (fun _ u r hu => ?_)
        fun _ => rfl
      exact (ht.unpublished hclient hpub hu).resolve_right fun ⟨b', hb⟩ => hdel (by simp) b' u r hb
    · exact ht.setOnce (hdel (by simp)) (by simp) (fun _ => hpub) (fun h => by cases h) fun _ => rfl
  | call =>
    simp only [ObserveSession.closeStep]
    split
    · rename_i hclient
      refine ht.setOnce (hdel (by simp)) (by simp) (fun _ => hpub) (fun _ u r hu => ?_)
        fun _ => rfl
      exact (ht.unpublished hclient hpub hu).resolve_right fun ⟨b', hb⟩ => hdel (by simp) b' u r hb
    · rename_i u hclient
      split
      · rename_i hroom
        refine ht.setOnce (hdel (by simp)) (by simp) (fun _ => hpub) (fun _ v t hv => ?_)
          fun _ => rfl
        rcases ht.placed v t hv with ⟨hc | ⟨roomID, hl⟩, hr⟩ | h | ⟨b', hb⟩
        · obtain rfl : u = v := Option.some.inj (hclient.symm.trans hc)
          rw [hroom] at hr
          cases hr
        · exact absurd hl (not_publish hpub v roomID)
        · exact h
        · exact absurd hb (hdel (by simp) b' v t)
      · rename_i r hroom
        exact ht.closeCall honce hpub hclient hroom
  | delete u r => exact ht.closeDelete honce hpub
  | clear =>
    have hleft := ht.emptied (by rw [honce]; rfl)
    exact ⟨fun _ => rfl, fun u r hu => Or.inr (Or.inl (hleft u r hu)),
      fun u r hl => ⟨(ht.loopDeletes u r hl).1, fun v hv => by cases hv⟩, fun b' u r h => (by cases h),
      fun hl u r hu => absurd ((hleft u r hu).symm.trans hl) (by simp), fun _ => hpub,
      fun _ => hleft, fun _ => rfl⟩
  | unregister =>
    have hnext := ht.setOnce (o := .running b .closeSend) (hdel (by simp)) (by simp) (fun _ => hpub)
      (fun _ => ht.emptied (by rw [honce]; rfl)) fun _ => rfl
    exact ⟨hnext.joining, hnext.placed, hnext.loopDeletes, hnext.onceDeletes, hnext.leaving,
      hnext.tested, hnext.emptied, hnext.sendClosed⟩
  | closeSend =>
    have hnext := ht.setOnce (o := .running b .closeSocket) (hdel (by simp)) (by simp) (fun _ => hpub)
      (fun _ => ht.emptied (by rw [honce]; rfl)) fun _ => rfl
    exact ⟨hnext.joining, hnext.placed, hnext.loopDeletes, hnext.onceDeletes, hnext.leaving,
      hnext.tested, hnext.emptied, fun _ => rfl⟩
  | closeSocket =>
    have hnext := ht.setOnce (o := .done) (hdel (by simp)) (by simp) (fun _ => hpub)
      (fun _ => ht.emptied (by rw [honce]; rfl)) fun _ => rfl
    exact ⟨hnext.joining, hnext.placed, hnext.loopDeletes, hnext.onceDeletes, hnext.leaving,
      hnext.tested, hnext.emptied, hnext.sendClosed⟩

theorem read (ht : s.Tidy) (hloop : s.loop = .reading) (m : SessionMsg) : (s.read m).Tidy := by
  have hold : s.loop.plain = true := by rw [hloop]; rfl
  have hpush : (s.push .reading).Tidy := ht.push hold rfl (by simp [SessionLoop.joining])
  cases m with
  | join roomID =>
    simp only [ObserveSession.read]
    split
    · exact hpush
    · rename_i hclient
      exact ht.goto hold rfl fun _ => hclient
  | leave =>
    simp only [ObserveSession.read]
    split
    · exact ht.goto hold rfl (by simp [SessionLoop.joining])
    · exact hpush
  | offer =>
    simp only [ObserveSession.read]
    split
    · exact ht.goto hold rfl (by simp [SessionLoop.joining])
    · exact hpush
  | other answered =>
    simp only [ObserveSession.read]
    split_ifs
    · exact hpush
    · exact ht

theorem addObserver (ht : s.Tidy) {roomID : RoomID} (hloop : s.loop = .add roomID)
    (env : SessionEnv)
    (htime : s.once.tested = false ∨ env.newID ∈ s.used ∨ env.found = none) :
    (s.addObserver roomID env).Tidy := by
  have hold : s.loop.plain = true := by rw [hloop]; rfl
  have hclient : s.client = none := ht.joining (by rw [hloop]; rfl)
  unfold ObserveSession.addObserver
  split_ifs with hused
  · exact ht
  · cases hfound : env.found with
    | none =>
      have ht' : Tidy { s with used := env.newID :: s.used } :=
        ⟨ht.joining, ht.placed, ht.loopDeletes, ht.onceDeletes, ht.leaving, ht.tested, ht.emptied,
          ht.sendClosed⟩
      exact ht'.push hold rfl (by simp [SessionLoop.joining])
    | some r =>
      have huntested : s.once.tested = false := by
        rcases htime with h | h | h
        · exact h
        · exact absurd h hused
        · rw [hfound] at h; cases h
      have hopen : s.sendClosed = false := by
        by_contra hc
        rw [ht.sendClosed (by simpa using hc)] at huntested
        cases huntested
      have hquiet : ∀ b u t, s.once ≠ .running b (.delete u t) := by
        intro b u t h
        rw [h] at huntested
        cases huntested
      -- nobody else of the connection is in a room
      have hnobody : ∀ v t, s.place v ≠ some t := by
        intro v t hv
        rcases ht.unpublished hclient (by rw [hloop]; rfl) hv with h | ⟨b, hb⟩
        · rw [hloop] at h; cases h
        · exact hquiet b v t hb
      simp only [ObserveSession.push, hopen, Bool.false_eq_true, if_false]
      refine ⟨fun _ => hclient, fun v t hv => Or.inl ?_, fun v t hl => (by cases hl),
        fun b v t hb => absurd hb (hquiet b v t), fun hl => (by cases hl), fun h => ?_, fun h => ?_,
        fun h => ?_⟩
      · simp only [Function.update_apply] at hv ⊢
        split_ifs at hv with hvu
        · rw [if_pos hvu]
          exact ⟨Or.inr ⟨roomID, by rw [hvu]⟩, hv⟩
        · exact absurd hv (hnobody v t)
      · rw [huntested] at h; cases h
      · rw [tested_of_emptied h] at huntested; cases huntested
      · cases h

theorem leaveCall (ht : s.Tidy) {u : UserID} (hloop : s.loop = .leaveCall)
    (hclient : s.client = some u) :
    (match s.room u with
      | none => { s with loop := .leaveClear }
      | some r => { s.clearRoom u with loop := .leaveDelete u r } : ObserveSession).Tidy := by
  have hnot : ∀ v t, s.loop ≠ .leaveDelete v t := fun v t h => by rw [hloop] at h; cases h
  -- whoever is in a room is `u` or being deleted by `closeConn`
  have honly : ∀ v t, s.place v = some t →
      v = u ∧ s.room u = some t ∨ ∃ b, s.once = .running b (.delete v t) := by
    intro v t hv
    rcases ht.placed v t hv with ⟨hc | ⟨roomID, hl⟩, hr⟩ | h | h
    · obtain rfl : u = v := Option.some.inj (hclient.symm.trans hc)
      exact Or.inl ⟨rfl, hr⟩
    · rw [hloop] at hl; cases hl
    · exact absurd h (hnot v t)
    · exact Or.inr h
  have hemptied : s.once.emptied = true → ∀ v t, s.place v ≠ some t := fun h v t hv =>
    hnot v t (ht.emptied h v t hv)
  cases hroom : s.room u with
  | none =>
    have honce : ∀ v t, s.place v = some t → ∃ b, s.once = .running b (.delete v t) := fun v t hv =>
      (honly v t hv).resolve_left fun h => by rw [hroom] at h; cases h.2
    exact ⟨fun h => (by cases h), fun v t hv => Or.inr (Or.inr (honce v t hv)),
      fun v t h => (by cases h), ht.onceDeletes, fun _ => honce, fun _ => rfl,
      fun h v t hv => absurd hv (hemptied h v t), ht.sendClosed⟩
  | some r =>
    refine ⟨fun h => (by cases h), fun v t hv => Or.inr ?_, fun v t h => ?_, fun b v t h => ?_,
      fun h => (by cases h), fun _ => rfl, fun h v t hv => absurd hv (hemptied h v t), ht.sendClosed⟩
    · refine (honly v t hv).imp_left fun ⟨hvu, hr⟩ => ?_
      obtain rfl : r = t := Option.some.inj (hroom.symm.trans hr)
      rw [hvu]
    · injection h with h _
      subst h
      exact ⟨Function.update_self _ _ _, fun w hw => Option.some.inj (hw.symm.trans hclient)⟩
    · obtain ⟨hnone, hv⟩ := ht.onceDeletes b v t h
      exact ⟨clearRoom_none hnone, hv⟩

theorem leaveDelete (ht : s.Tidy) {u : UserID} {r : RoomRef} (hloop : s.loop = .leaveDelete u r) :
    Tidy { s.delete u r with loop := .leaveClear } := by
  obtain ⟨hnone, hu⟩ := ht.loopDeletes u r hloop
  have hother : ∀ {v t}, s.loop = .leaveDelete v t → v = u ∧ t = r := by
    intro v t hl
    rw [hloop] at hl
    injection hl with h1 h2
    exact ⟨h1.symm, h2.symm⟩
  have honce : ∀ v t, (s.delete u r).place v = some t →
      ∃ b, s.once = .running b (.delete v t) := by
    intro v t hv
    obtain ⟨hv', hne⟩ := place_delete hv
    rcases ht.placed v t hv' with ⟨hc | ⟨roomID, hl⟩, hr⟩ | h | h
    · rw [hu v hc, hnone] at hr
      cases hr
    · rw [hloop] at hl; cases hl
    · exact absurd (hother h) hne
    · exact h
  refine ⟨fun h => (by cases h), fun v t hv => Or.inr (Or.inr ?_), fun v t h => (by cases h), ?_,
    fun _ v t hv => ?_, fun _ => rfl, fun h v t hv => ?_, ?_⟩
  · simpa using honce v t hv
  · simpa using ht.onceDeletes
  · simpa using honce v t hv
  · obtain ⟨hv', hne⟩ := place_delete hv
    exact absurd (hother (ht.emptied (by simpa using h) v t hv')) hne
  · simpa using ht.sendClosed

theorem run (ht : s.Tidy) {env : SessionEnv} (htime : s.timely (.run env) = true) :
    (s.run env).Tidy := by
  unfold ObserveSession.run
  cases hloop : s.loop with
  | reading => exact ht
  | gate roomID =>
    have hold : s.loop.plain = true := by rw [hloop]; rfl
    dsimp only
    split_ifs
    · exact ht.goto hold rfl fun _ => ht.joining (by rw [hloop]; rfl)
    · exact ht.push hold rfl (by simp [SessionLoop.joining])
  | add roomID =>
    simp only [timely, hloop, Bool.or_eq_true, Bool.not_eq_true', decide_eq_true_eq,
      Option.isNone_iff_eq_none, or_assoc] at htime
    exact ht.addObserver hloop env htime
  | publish u roomID =>
    have hclient : s.client = none := ht.joining (by rw [hloop]; rfl)
    have huntested : s.once.tested = false := by
      by_contra h
      have hpub := ht.tested (by simpa using h)
      rw [hloop] at hpub
      cases hpub
    have hquiet : ∀ b v t, s.once ≠ .running b (.delete v t) := by
      intro b v t h
      rw [h] at huntested
      cases huntested
    refine ⟨fun h => (by cases h), fun v t hv => Or.inl ?_, fun v t h => (by cases h),
      fun b v t hb => absurd hb (hquiet b v t), fun h => (by cases h), fun _ => rfl, fun h => ?_,
      ht.sendClosed⟩
    · rcases ht.placed v t hv with ⟨hc | ⟨roomID, hl⟩, hr⟩ | h | ⟨b, hb⟩
      · rw [hclient] at hc; cases hc
      · rw [hloop] at hl
        injection hl with h1
        exact ⟨Or.inl (congrArg some h1), hr⟩
      · rw [hloop] at h; cases h
      · exact absurd hb (hquiet b v t)
    · rw [tested_of_emptied h] at huntested; cases huntested
  | leaveCall =>
    have hold : s.loop.plain = true := by rw [hloop]; rfl
    dsimp only
    split
    · exact ht.goto hold rfl (by simp [SessionLoop.joining])
    · rename_i u hclient
      exact ht.leaveCall hloop hclient
  | leaveDelete u r => exact ht.leaveDelete hloop
  | leaveClear =>
    have honce := ht.leaving hloop
    exact ⟨fun _ => rfl, fun v t hv => Or.inr (Or.inr (honce v t hv)), fun v t h => (by cases h),
      fun b v t hb => ⟨(ht.onceDeletes b v t hb).1, fun w hw => by cases hw⟩, fun h => (by cases h),
      fun _ => rfl, fun h v t hv => absurd ((ht.emptied h v t hv).symm.trans hloop) (by simp),
      ht.sendClosed⟩
  | left => exact ht.push (by rw [hloop]; rfl) rfl (by simp [SessionLoop.joining])
  | dispatch =>
    have hold : s.loop.plain = true := by rw [hloop]; rfl
    dsimp only
    split
    · exact ht.goto hold rfl (by simp [SessionLoop.joining])
    · split_ifs
      · exact ht.push hold rfl (by simp [SessionLoop.joining])
      · exact ht.goto hold rfl (by simp [SessionLoop.joining])
  | exiting =>
    have hold : s.loop.plain = true := by rw [hloop]; rfl
    dsimp only
    split
    · rename_i honce
      have hgo := ht.goto (l := .closing) hold rfl (by simp [SessionLoop.joining])
      exact hgo.opens honce true
    · exact ht
    · exact ht.goto hold rfl (by simp [SessionLoop.joining])
  | closing =>
    have hold : s.loop.plain = true := by rw [hloop]; rfl
    dsimp only
    split
    · rename_i step honce
      exact ht.closeStep honce fun _ => plain_publishing hold
    · exact ht.goto hold rfl (by simp [SessionLoop.joining])
  | exited => exact ht

theorem step (ht : s.Tidy) {l : SessionLabel} (htime : s.timely l = true) : (s.step l).Tidy := by
  cases l with
  | read m =>
    simp only [ObserveSession.step]
    split_ifs with hloop
    · exact ht.read hloop m
    · exact ht
  | readError =>
    simp only [ObserveSession.step]
    split_ifs with hloop
    · exact ht.goto (by rw [hloop]; rfl) rfl (by simp [SessionLoop.joining])
    · exact ht
  | run env => exact ht.run htime
  | close =>
    simp only [ObserveSession.step]
    split_ifs with honce
    · exact ht.opens honce false
    · exact ht
  | closer =>
    simp only [ObserveSession.step]
    split
    · rename_i step honce
      refine ht.closeStep honce fun h => ?_
      subst h
      simpa [timely, honce] using htime
    · exact ht

end Tidy

theorem tidy_init : ({} : ObserveSession).Tidy :=
  ⟨fun _ => rfl, fun _ _ h => (by cases h), fun _ _ h => (by cases h), fun _ _ _ h => (by cases h),
    fun h => (by cases h), fun _ => rfl, fun _ _ _ h => (by cases h), fun h => (by cases h)⟩

end Steps

end ObserveSession

open ObserveSession

/-- Once `closeConn` has run and the readLoop has exited no room has an observer of the
connection, in every run in which `closeConn` looks at `oc.client` at no time between
the adding of an observer and its writing there, and none is added after. -/
theorem closed_session_leaves_no_observer {ls : List SessionLabel}
    (hg : observeSession.Guarded (fun s l => s.timely l = true) ls)
    (hclosed : (observeSession.run ls).once = .done)
    (hexited : (observeSession.run ls).loop = .exited) (u : UserID) :
    (observeSession.run ls).place u = none := by
  have ht : (observeSession.run ls).Tidy :=
    Machine.guarded_invariant tidy_init (fun _ _ htime ht => ht.step htime) hg
  refine Option.eq_none_iff_forall_ne_some.2 fun r hr => ?_
  have hloop := ht.emptied (by rw [hclosed]; rfl) u r hr
  rw [hexited] at hloop
  cases hloop

theorem watched_then_closed : (observeSession.run [.read (.join "r"), .run {}, .run { newID := "u" },
    .run {}, .read .offer, .close, .closer, .closer, .run {}, .closer, .closer, .closer, .closer,
    .closer, .readError, .run {}]).place "u" = none :=
  closed_session_leaves_no_observer (by decide +kernel) (by decide +kernel) (by decide +kernel) "u"

/-- The connection is closed after the observer was added and before it was written
to `oc.client`. -/
theorem observer_left_behind :
    let s := observeSession.run [.read (.join "r"), .run {}, .run { newID := "u" }, .close, .closer,
      .closer, .closer, .closer, .run {}, .readError, .run {}]
    s.once = .done ∧ s.loop = .exited ∧ s.place "u" = some 0 := by
  decide +kernel

end Meetkit
