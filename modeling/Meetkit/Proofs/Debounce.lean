import Meetkit.Lib.Machine
import Meetkit.Model.Dashboard

/-! Debouncing. Calls of `scheduleHubPush` that find a timer set are dropped, so what
they announce has to be in the snapshot of a broadcast that is still to come. A run
is followed with a note of every call and of every snapshot built for the hub. -/

namespace Meetkit

inductive PushNote
  /-- A call of `scheduleHubPush` has returned. -/
  | scheduled
  /-- `broadcastHub` has built its snapshot. -/
  | built
  deriving DecidableEq

/-- The dashboard with what is noted of its run. -/
structure Pushes where
  dash : Dashboard := {}
  /-- The broadcasts that a timer's callback makes, which are those of `broadcastHub`. -/
  hub : List ℕ := []
  notes : List PushNote := []

namespace Pushes

def started (d : Dashboard) : DashboardLabel → List ℕ
  | .fire => if 0 < d.timers then [d.broadcasts.length] else []
  | _ => []

def noted (p : Pushes) : DashboardLabel → List PushNote
  | .statsChanged => [.scheduled]
  | .broadcast n _ _ =>
    match p.dash.broadcasts[n]? with
    | some .marshal => if n ∈ p.hub then [.built] else []
    | _ => []
  | _ => []

def step (p : Pushes) (l : DashboardLabel) : Pushes where
  dash := p.dash.step l
  hub := p.hub ++ started p.dash l
  notes := p.notes ++ p.noted l

end Pushes

def pushes : Machine Pushes DashboardLabel where
  init := {}
  step := Pushes.step

theorem pushes_dash (ls : List DashboardLabel) : (pushes.run ls).dash = dashboard.run ls :=
  Machine.run_proj Pushes.dash rfl (fun _ _ => rfl) ls

namespace Pushes

variable {p : Pushes} {l : DashboardLabel} {n : ℕ}

/-- A call that no snapshot has followed. -/
def Unserved (notes : List PushNote) : Prop :=
  ∃ pre post, notes = pre ++ .scheduled :: post ∧ .built ∉ post

/-- The `n`-th broadcast is the hub's and has not built its snapshot. -/
def Ahead (p : Pushes) (n : ℕ) : Prop :=
  n ∈ p.hub ∧ (p.dash.broadcasts[n]? = some .fired ∨ p.dash.broadcasts[n]? = some .marshal)

theorem unserved_append {notes es : List PushNote} (h : Unserved (notes ++ es)) :
    .scheduled ∈ es ∨ .built ∉ es ∧ Unserved notes := by
  obtain ⟨pre, post, heq, hb⟩ := h
  rcases List.append_eq_append_iff.1 heq with ⟨mid, -, hes⟩ | ⟨mid, hnotes, hmid⟩
  · exact Or.inl (hes ▸ List.mem_append_right _ List.mem_cons_self)
  · cases mid with
    | nil =>
      have hes : PushNote.scheduled :: post = es := hmid
      exact Or.inl (hes ▸ List.mem_cons_self)
    | cons x mid =>
      obtain ⟨rfl, rfl⟩ : PushNote.scheduled = x ∧ post = mid ++ es := List.cons.inj hmid
      refine Or.inr ⟨fun h => hb (List.mem_append_right _ h), pre, mid, hnotes, ?_⟩
      exact fun h => hb (List.mem_append_left _ h)

/-- `d.debounce` is set from the call that sets the timer to the reset in the callback
of that timer: either the timer runs, or one callback is before its reset. -/
structure Covered (p : Pushes) : Prop where
  timers : p.dash.timers ≤ if p.dash.debounce then 1 else 0
  set : p.dash.debounce = true → p.dash.timers = 0 →
    ∃ n : ℕ, p.dash.broadcasts[n]? = some Broadcast.fired
  fired : ∀ n : ℕ, p.dash.broadcasts[n]? = some Broadcast.fired →
    p.dash.debounce = true ∧ p.dash.timers = 0 ∧ n ∈ p.hub ∧
      ∀ m : ℕ, p.dash.broadcasts[m]? = some Broadcast.fired → m = n
  owed : Unserved p.notes → 0 < p.dash.timers ∨ ∃ n, p.Ahead n

/-- A step that is neither a call, nor a timer's, nor a broadcast's. -/
theorem Covered.apart (hp : p.Covered) {d : Dashboard} (hdebounce : d.debounce = p.dash.debounce)
    (htimers : d.timers = p.dash.timers) (hbroadcasts : d.broadcasts = p.dash.broadcasts) :
    Covered { p with dash := d } := by
  obtain ⟨h1, h2, h3, h4⟩ := hp
  refine ⟨?_, ?_, ?_, ?_⟩
  · simpa only [htimers, hdebounce] using h1
  · simpa only [htimers, hdebounce, hbroadcasts] using h2
  · simpa only [htimers, hdebounce, hbroadcasts] using h3
  · simpa only [Ahead, htimers, hbroadcasts] using h4

theorem Covered.schedule (hp : p.Covered) :
    Covered { p with dash := p.dash.scheduleHubPush, notes := p.notes ++ [.scheduled] } := by
  unfold Dashboard.scheduleHubPush
  by_cases hd : p.dash.debounce = true
  · rw [if_pos hd]
    refine ⟨hp.timers, hp.set, hp.fired, fun _ => ?_⟩
    -- the call is dropped: the timer it found will be served after it
    by_cases ht : p.dash.timers = 0
    · obtain ⟨n, hn⟩ := hp.set hd ht
      obtain ⟨-, -, hhub, -⟩ := hp.fired n hn
      exact Or.inr ⟨n, hhub, Or.inl hn⟩
    · exact Or.inl (Nat.pos_of_ne_zero ht)
  · have ht : p.dash.timers = 0 := by
      have h := hp.timers
      rw [if_neg hd] at h
      omega
    rw [if_neg hd]
    refine ⟨by simp [ht], fun _ h => absurd h (Nat.succ_ne_zero _), fun n hn => ?_,
      fun _ => Or.inl (Nat.succ_pos _)⟩
    exact absurd (hp.fired n hn).1 hd

theorem getElem?_snoc {α : Type} (l : List α) (x : α) (n : ℕ) :
    (l ++ [x])[n]? = if n = l.length then some x else l[n]? := by
  rcases lt_trichotomy n l.length with h | h | h
  · rw [List.getElem?_append_left h, if_neg h.ne]
  · subst h; simp
  · rw [if_neg h.ne', List.getElem?_eq_none (by simp; omega), List.getElem?_eq_none h.le]

theorem Covered.fire (hp : p.Covered) (ht : 0 < p.dash.timers) :
    Covered { p with
      dash := { p.dash with
        timers := p.dash.timers - 1, broadcasts := p.dash.broadcasts ++ [.fired] }
      hub := p.hub ++ [p.dash.broadcasts.length] } := by
  have hd : p.dash.debounce = true ∧ p.dash.timers = 1 := by
    have h := hp.timers
    split_ifs at h with hd
    · exact ⟨hd, by omega⟩
    · omega
  have hlast : (p.dash.broadcasts ++ [Broadcast.fired])[p.dash.broadcasts.length]? = some .fired := by
    rw [getElem?_snoc, if_pos rfl]
  -- no other callback is before its reset, since the timer had not fired
  have honly : ∀ m : ℕ, (p.dash.broadcasts ++ [Broadcast.fired])[m]? = some .fired →
      m = p.dash.broadcasts.length := by
    intro m hm
    rw [getElem?_snoc] at hm
    split_ifs at hm with h
    · exact h
    · have h := (hp.fired m hm).2.1
      omega
  refine ⟨by simp [hd.1, hd.2], fun _ _ => ⟨_, hlast⟩, fun n hn => ?_, fun _ => ?_⟩
  · obtain rfl := honly n hn
    exact ⟨hd.1, by simp [hd.2], by simp, honly⟩
  · exact Or.inr ⟨_, by simp, Or.inl hlast⟩

theorem Covered.audit (hp : p.Covered) :
    Covered { p with dash := { p.dash with broadcasts := p.dash.broadcasts ++ [.marshal] } } := by
  have hfired : ∀ m : ℕ, (p.dash.broadcasts ++ [Broadcast.marshal])[m]? = some .fired ↔
      p.dash.broadcasts[m]? = some .fired := by
    intro m
    rw [getElem?_snoc]
    split_ifs with h
    · subst h; simp
    · rfl
  refine ⟨hp.timers, ?_, ?_, fun h => ?_⟩
  · simpa only [hfired] using hp.set
  · simpa only [hfired] using hp.fired
  · rcases hp.owed h with h | ⟨n, hn, hb⟩
    · exact Or.inl h
    · have hlt : n < p.dash.broadcasts.length := by
        rcases hb with hb | hb <;> exact (List.getElem?_eq_some_iff.1 hb).1
      refine Or.inr ⟨n, hn, ?_⟩
      simpa only [List.getElem?_append_left hlt] using hb

/-- The callback clears `d.debounce`; its snapshot is still to come. -/
theorem Covered.reset (hp : p.Covered) (hn : p.dash.broadcasts[n]? = some .fired) :
    Covered { p with
      dash := { p.dash.setBroadcast n .marshal with debounce := false } } := by
  obtain ⟨-, ht, hhub, honly⟩ := hp.fired n hn
  have hlt := (List.getElem?_eq_some_iff.1 hn).1
  have hgone : ∀ m : ℕ, (p.dash.broadcasts.set n Broadcast.marshal)[m]? ≠ some .fired := by
    intro m hm
    rw [List.getElem?_set] at hm
    split_ifs at hm with h
    · simp at hm
    · exact h (honly m hm).symm
  refine ⟨by simp [Dashboard.setBroadcast, ht], nofun, fun m hm => absurd hm (hgone m), fun _ => ?_⟩
  exact Or.inr ⟨n, hhub, Or.inr (by simp [Dashboard.setBroadcast, hlt])⟩

/-- A broadcast that goes on from its snapshot, or with its sends. -/
theorem Covered.proceed (hp : p.Covered) {b : Broadcast} (hn : p.dash.broadcasts[n]? = some b)
    (hb : b ≠ .fired) {raw : String} {todo : List ConnID} {d : Dashboard}
    (hd : d = p.dash.setBroadcast n (.sending raw todo) ∨
      ∃ k s, d = (p.dash.setBroadcast n (.sending raw todo)).offer k s) :
    Covered { p with dash := d, notes := p.notes ++ p.noted (.broadcast n none id) } := by
  have hsame : d.debounce = p.dash.debounce ∧ d.timers = p.dash.timers ∧
      d.broadcasts = p.dash.broadcasts.set n (.sending raw todo) := by
    rcases hd with rfl | ⟨k, s, rfl⟩ <;> exact ⟨rfl, rfl, rfl⟩
  obtain ⟨hdebounce, htimers, hbroadcasts⟩ := hsame
  have hset : ∀ m : ℕ, d.broadcasts[m]? =
      if n = m then some (.sending raw todo) else p.dash.broadcasts[m]? := by
    intro m
    rw [hbroadcasts, List.getElem?_set]
    split_ifs with h h' <;> first | rfl | skip
    subst h
    exact absurd (List.getElem?_eq_some_iff.1 hn).1 h'
  have hfired : ∀ m : ℕ, d.broadcasts[m]? = some .fired ↔ p.dash.broadcasts[m]? = some .fired := by
    intro m
    rw [hset]
    split_ifs with h
    · subst h
      rw [hn]
      simp [hb]
    · rfl
  refine ⟨?_, ?_, ?_, fun h => ?_⟩
  · simpa only [htimers, hdebounce] using hp.timers
  · simpa only [htimers, hdebounce, hfired] using hp.set
  · simpa only [htimers, hdebounce, hfired] using hp.fired
  · obtain h | ⟨hbuilt, h⟩ := unserved_append h
    · simp only [noted, hn] at h
      split at h
      · split_ifs at h <;> simp at h
      · simp at h
    · simp only [htimers]
      rcases hp.owed h with h | ⟨m, hm, hahead⟩
      · exact Or.inl h
      · refine Or.inr ⟨m, hm, ?_⟩
        -- had it been the hub's, its snapshot would have been noted
        have hne : n ≠ m := by
          rintro rfl
          rw [hn] at hahead
          rcases hahead with h | h
          · exact hb (Option.some.inj h)
          · obtain rfl := Option.some.inj h
            exact hbuilt (by simp [noted, hn, hm])
        simpa only [hset, if_neg hne] using hahead

theorem Covered.broadcast (hp : p.Covered) (n : ℕ) (raw : Option String) (rank : ConnID → ℕ) :
    (p.step (.broadcast n raw rank)).Covered := by
  have hstep : p.step (.broadcast n raw rank) = { p with
      dash := p.dash.runBroadcast n raw rank
      notes := p.notes ++ p.noted (.broadcast n none id) } := by
    simp only [Pushes.step, started, List.append_nil]
    rfl
  rw [hstep]
  have hquiet : ∀ b, p.dash.broadcasts[n]? = b → b ≠ some .marshal →
      p.notes ++ p.noted (.broadcast n none id) = p.notes := by
    intro b hb hne
    simp only [noted, hb, List.append_nil]
  cases hn : p.dash.broadcasts[n]? with
  | none =>
    rw [hquiet _ hn (by simp)]
    simp only [Dashboard.runBroadcast, hn]
    exact hp
  | some b =>
    cases b with
    | fired =>
      rw [hquiet _ hn (by simp)]
      simp only [Dashboard.runBroadcast, hn]
      exact hp.reset hn
    | marshal =>
      simp only [Dashboard.runBroadcast, hn]
      cases raw with
      | none => exact hp.proceed hn (by simp) (Or.inl rfl)
      | some raw => exact hp.proceed hn (by simp) (Or.inl rfl)
    | sending raw' todo =>
      cases todo with
      | nil =>
        rw [hquiet _ hn (by simp)]
        simp only [Dashboard.runBroadcast, hn]
        exact hp
      | cons k todo =>
        simp only [Dashboard.runBroadcast, hn]
        exact hp.proceed hn (by simp) (Or.inr ⟨k, raw', rfl⟩)

theorem Covered.step (hp : p.Covered) (l : DashboardLabel) : (p.step l).Covered := by
  have hquiet : started p.dash l = [] → p.noted l = [] →
      p.step l = { p with dash := p.dash.step l } := by
    intro h1 h2
    simp only [Pushes.step, h1, h2, List.append_nil]
  cases l with
  | statsChanged =>
    have h := hp.schedule
    simpa only [Pushes.step, started, noted, Dashboard.step, List.append_nil] using h
  | fire =>
    by_cases ht : 0 < p.dash.timers
    · have h := hp.fire ht
      simpa only [Pushes.step, started, noted, Dashboard.step, if_pos ht, List.append_nil] using h
    · simpa only [Pushes.step, started, noted, Dashboard.step, if_neg ht, List.append_nil] using hp
  | audited =>
    rw [hquiet rfl rfl]
    exact hp.audit
  | broadcast n raw rank => exact hp.broadcast n raw rank
  | push k raw =>
    rw [hquiet rfl rfl]
    simp only [Dashboard.step]
    split_ifs
    · cases raw <;> exact hp.apart rfl rfl rfl
    · exact hp
  | close k =>
    rw [hquiet rfl rfl]
    simp only [Dashboard.step]
    split <;> exact hp.apart rfl rfl rfl
  | write k =>
    rw [hquiet rfl rfl]
    exact hp.apart rfl rfl rfl
  | register | refresh | readError =>
    rw [hquiet rfl rfl]
    simp only [Dashboard.step]
    split_ifs
    · exact hp.apart rfl rfl rfl
    · exact hp

theorem pushes_covered (ls : List DashboardLabel) : (pushes.run ls).Covered := by
  refine Machine.run_invariant (P := Covered) ?_ (fun p l hp => hp.step l) ls
  refine ⟨Nat.zero_le _, nofun, fun n hn => ?_, ?_⟩
  · simp [pushes] at hn
  · rintro ⟨pre, post, h, -⟩
    simp [pushes] at h

end Pushes

/-- A call of `scheduleHubPush` that no snapshot has followed is served by a pending
timer or by a callback that has not built its snapshot; no second timer is set. -/
theorem debounce_loses_no_update (ls : List DashboardLabel) :
    let p := pushes.run ls
    p.dash = dashboard.run ls ∧
      (∀ pre post, p.notes = pre ++ PushNote.scheduled :: post →
        PushNote.built ∈ post ∨ 0 < p.dash.timers ∨
          ∃ n ∈ p.hub, p.dash.broadcasts[n]? = some .fired ∨
            p.dash.broadcasts[n]? = some .marshal) ∧
      p.dash.timers ≤ 1 := by
  intro p
  have hp : p.Covered := Pushes.pushes_covered ls
  refine ⟨pushes_dash ls, fun pre post h => ?_, ?_⟩
  · by_cases hb : PushNote.built ∈ post
    · exact Or.inl hb
    · exact Or.inr (hp.owed ⟨pre, post, h, hb⟩)
  · have h := hp.timers
    split_ifs at h <;> omega

end Meetkit
