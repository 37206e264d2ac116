import Meetkit.Model.ObserveAccess
import Meetkit.Proofs.Revocation

/-! Observe connections and revoked tokens, with the requests interleaved. A connection that is
registered after its token was revoked, or while a logout is about to revoke it, is
found by nobody any more. -/

namespace Meetkit

/-- Steps that bring requests in progress to their end. -/
def AccessLabel.finishes : AccessLabel → Bool
  | .upgradeFailed _ | .sweep _ | .revoke _ => true
  | _ => false

namespace Access

variable {s : Access} {t : Token}

/-- No request is in progress. -/
def Idle (s : Access) : Prop := s.attempts = [] ∧ s.logouts = []

/-- A connection with the token may be registered now: the token is valid and nobody is
logging it out, or a logout has yet to close its connections. -/
def InTime (s : Access) (t : Token) : Prop :=
  (∃ l ∈ s.logouts, l.token = t ∧ l.swept = false) ∨
    s.admin.auth.Accepts t ∧ ∀ l ∈ s.logouts, l.token ≠ t

instance (s : Access) (t : Token) : Decidable (s.InTime t) :=
  inferInstanceAs (Decidable ((∃ l ∈ s.logouts, l.token = t ∧ l.swept = false) ∨
    s.admin.auth.Accepts t ∧ ∀ l ∈ s.logouts, l.token ≠ t))

/-- Connections are registered in time. -/
def Timely (s : Access) : AccessLabel → Prop
  | .register n => ∀ oc, s.attempts[n]? = some oc → s.InTime oc.token
  | _ => True

/-- Every registered connection has a valid token. -/
def Authorised (s : Access) : Prop := ∀ oc ∈ s.admin.conns, s.admin.auth.Accepts oc.token

/-- Every registered connection has a valid token or will be closed. -/
def Answerable (s : Access) : Prop := ∀ oc ∈ s.admin.conns, s.InTime oc.token

theorem Answerable.authorised (h : s.Answerable) (hi : s.Idle) : s.Authorised := by
  intro oc hoc
  rcases h oc hoc with ⟨l, hl, -⟩ | ⟨ha, -⟩
  · rw [hi.2] at hl
    cases hl
  · exact ha

theorem Answerable.step (h : s.Answerable) {l : AccessLabel} (hl : s.Timely l) :
    (s.step l).Answerable := by
  cases l with
  | login username password token =>
    intro oc hoc
    obtain ⟨hauth, -, hconns⟩ := Admin.handleLogin_cases s.admin username password token
    obtain ⟨hold, hkicked⟩ := hconns oc hoc
    rcases h oc hold with hleft | ⟨ha, hnone⟩
    · exact Or.inl hleft
    · have haccepts : (s.admin.handleLogin username password token).auth.Accepts oc.token := by
        rw [hauth]
        exact (Auth.login_accepts _ password token ha).resolve_right hkicked
      exact Or.inr ⟨haccepts, hnone⟩
  | validate id query header =>
    simp only [Access.step]
    split
    · exact h
    · exact h
  | upgradeFailed n => exact h
  | register n =>
    simp only [Access.step]
    split
    · exact h
    · rename_i oc hoc
      intro oc' hmem
      rcases List.mem_cons.1 hmem with rfl | hmem
      · exact hl oc' hoc
      · exact h oc' hmem
  | close id => exact fun oc hoc => h oc (List.mem_filter.1 hoc).1
  | logout header =>
    simp only [Access.step]
    split
    · exact h
    · intro oc hoc
      rcases h oc hoc with ⟨l, hmem, hlt⟩ | ⟨ha, hnone⟩
      · exact Or.inl ⟨l, List.mem_append_left _ hmem, hlt⟩
      · by_cases ht : Text.trimSpace header = oc.token
        · exact Or.inl ⟨_, List.mem_append_right _ (List.mem_singleton_self _), ht, rfl⟩
        · refine Or.inr ⟨ha, fun l hmem => ?_⟩
          rcases List.mem_append.1 hmem with hmem | hmem
          · exact hnone l hmem
          · rw [List.mem_singleton.1 hmem]
            exact ht
  | sweep n =>
    simp only [Access.step]
    split
    · exact h
    · rename_i l hn
      split_ifs with hswept
      · exact h
      · intro oc hoc
        obtain ⟨hold, hne⟩ := List.mem_filter.1 hoc
        rcases h oc hold with ⟨l', hmem, hlt⟩ | ⟨ha, hnone⟩
        · left
          obtain ⟨m, hm⟩ := List.mem_iff_getElem?.1 hmem
          have hmn : n ≠ m := by
            rintro rfl
            rw [hn] at hm
            obtain rfl := Option.some.inj hm
            simp [hlt.1] at hne
          refine ⟨l', List.mem_of_getElem? (?_ : (s.logouts.set n _)[m]? = some l'), hlt⟩
          rw [List.getElem?_set_ne hmn, hm]
        · refine Or.inr ⟨ha, fun l' hmem => ?_⟩
          rcases List.mem_or_eq_of_mem_set hmem with hmem | rfl
          · exact hnone l' hmem
          · exact hnone l (List.mem_of_getElem? hn)
  | revoke n =>
    simp only [Access.step]
    split
    · exact h
    · rename_i l hn
      split_ifs with hswept
      · intro oc hoc
        rcases h oc hoc with ⟨l', hmem, hlt⟩ | ⟨ha, hnone⟩
        · left
          obtain ⟨m, hm⟩ := List.mem_iff_getElem?.1 hmem
          refine ⟨l', List.mem_eraseIdx_iff_getElem?.2 ⟨m, ?_, hm⟩, hlt⟩
          rintro rfl
          rw [hn] at hm
          obtain rfl := Option.some.inj hm
          rw [hlt.2] at hswept
          cases hswept
        · right
          have hne : oc.token ≠ l.token := (hnone l (List.mem_of_getElem? hn)).symm
          exact ⟨Auth.logout_accepts.2 ⟨ha, hne⟩, fun l' hmem => hnone l' (List.mem_of_mem_eraseIdx hmem)⟩
      · exact h

/-! ### A connection that comes too late -/

/-- A connection has a token that no logout in progress will close, and that is not valid
or about to be revoked. -/
structure Doomed (s : Access) (oc : AdminConn) : Prop where
  registered : oc ∈ s.admin.conns
  late : ¬s.InTime oc.token

theorem inTime_of_finishing {l : AccessLabel} (hl : l.finishes = true) (h : (s.step l).InTime t) :
    s.InTime t := by
  cases l with
  | upgradeFailed n => exact h
  | sweep n =>
    simp only [Access.step] at h
    split at h
    · exact h
    · rename_i l hn
      have hl := List.mem_of_getElem? hn
      split_ifs at h with hswept
      · exact h
      · by_cases ht : l.token = t
        · exact Or.inl ⟨l, hl, ht, by simpa using hswept⟩
        · rcases h with ⟨l', hmem, hlt⟩ | ⟨ha, hnone⟩
          · rcases List.mem_or_eq_of_mem_set hmem with hmem | rfl
            · exact Or.inl ⟨l', hmem, hlt⟩
            · exact absurd hlt.1 ht
          · refine Or.inr ⟨ha, fun l' hmem => ?_⟩
            obtain ⟨m, hm⟩ := List.mem_iff_getElem?.1 hmem
            by_cases hmn : n = m
            · subst hmn
              rw [hn] at hm
              obtain rfl := Option.some.inj hm
              exact ht
            · refine hnone l' (List.mem_of_getElem? (?_ : (s.logouts.set n _)[m]? = some l'))
              rw [List.getElem?_set_ne hmn, hm]
  | revoke n =>
    simp only [Access.step] at h
    split at h
    · exact h
    · rename_i l hn
      split_ifs at h with hswept
      · rcases h with ⟨l', hmem, hlt⟩ | ⟨ha, hnone⟩
        · exact Or.inl ⟨l', List.mem_of_mem_eraseIdx hmem, hlt⟩
        · obtain ⟨ha, hne⟩ := Auth.logout_accepts.1 ha
          refine Or.inr ⟨ha, fun l' hmem => ?_⟩
          obtain ⟨m, hm⟩ := List.mem_iff_getElem?.1 hmem
          by_cases hmn : m = n
          · subst hmn
            rw [hn] at hm
            obtain rfl := Option.some.inj hm
            exact hne.symm
          · exact hnone l' (List.mem_eraseIdx_iff_getElem?.2 ⟨m, hmn, hm⟩)
      · exact h
  | login | validate | register | close | logout => cases hl

theorem Doomed.step {oc : AdminConn} (h : s.Doomed oc) {l : AccessLabel} (hl : l.finishes = true) :
    (s.step l).Doomed oc := by
  refine ⟨?_, fun hin => h.late (inTime_of_finishing hl hin)⟩
  cases l with
  | upgradeFailed n => exact h.registered
  | sweep n =>
    simp only [Access.step]
    split
    · exact h.registered
    · rename_i l hn
      split_ifs with hswept
      · exact h.registered
      · refine List.mem_filter.2 ⟨h.registered, ?_⟩
        have hne : oc.token ≠ l.token := fun ht =>
          h.late (Or.inl ⟨l, List.mem_of_getElem? hn, ht.symm, by simpa using hswept⟩)
        simpa using hne
  | revoke n =>
    simp only [Access.step]
    split
    · exact h.registered
    · split_ifs
      · exact h.registered
      · exact h.registered
  | login | validate | register | close | logout => cases hl

theorem Doomed.runFrom {accounts : GoMap String String} {oc : AdminConn} {ls : List AccessLabel}
    (hls : ∀ l ∈ ls, AccessLabel.finishes l = true) (h : s.Doomed oc) :
    ((access accounts).runFrom s ls).Doomed oc := by
  induction ls generalizing s with
  | nil => exact h
  | cons l ls ih => exact ih (fun l' hl' => hls l' (by simp [hl'])) (h.step (hls l (by simp)))

theorem Doomed.unauthorised {oc : AdminConn} (h : s.Doomed oc) (hi : s.Idle) : ¬s.Authorised := by
  intro ha
  refine h.late (Or.inr ⟨ha oc h.registered, ?_⟩)
  rw [hi.2]
  simp

theorem step_sweep_revoke {l : PendingLogout} {ls : List PendingLogout} (hs : s.logouts = l :: ls) :
    ((s.step (.sweep 0)).step (.revoke 0)).logouts = ls ∧
      ((s.step (.sweep 0)).step (.revoke 0)).attempts = s.attempts := by
  cases hl : l.swept with
  | true => simp [Access.step, hs, hl]
  | false => simp [Access.step, hs, hl]

/-- Whatever is in progress can come to its end. -/
theorem exists_finish (accounts : GoMap String String) (s : Access) :
    ∃ ls, (∀ l ∈ ls, AccessLabel.finishes l = true) ∧ ((access accounts).runFrom s ls).Idle := by
  induction hatt : s.attempts generalizing s with
  | nil =>
    induction hlog : s.logouts generalizing s with
    | nil => exact ⟨[], by simp, hatt, hlog⟩
    | cons l logouts ih =>
      obtain ⟨hlog', hatt'⟩ := step_sweep_revoke hlog
      obtain ⟨ls, hls, hidle⟩ := ih _ (hatt'.trans hatt) hlog'
      exact ⟨.sweep 0 :: .revoke 0 :: ls, by simpa [AccessLabel.finishes] using hls, hidle⟩
  | cons oc attempts ih =>
    have hatt' : (s.step (.upgradeFailed 0)).attempts = attempts := by simp [Access.step, hatt]
    obtain ⟨ls, hls, hidle⟩ := ih _ hatt'
    exact ⟨.upgradeFailed 0 :: ls, by simpa [AccessLabel.finishes] using hls, hidle⟩

theorem doomed_of_late {n : ℕ} (hl : ¬s.Timely (.register n)) :
    ∃ oc, (s.step (.register n)).Doomed oc := by
  simp only [Timely, not_forall] at hl
  obtain ⟨oc, hoc, hlate⟩ := hl
  refine ⟨oc, ?_, ?_⟩
  · simp only [Access.step, hoc]
    exact List.mem_cons_self
  · simp only [Access.step, hoc]
    exact hlate

end Access

/-- In a run that registers every observe connection while its token is valid and not being logged
out, or while a logout has yet to close the token's connections, no connection
has a revoked token once no request is in progress. Where one is registered later,
the requests in progress may end and leave it there. -/
theorem observers_are_authorised_iff (accounts : GoMap String String) :
    (∀ is, (access accounts).Guarded Access.Timely is → ∀ pre, pre <+: is →
        ((access accounts).run pre).Idle → ((access accounts).run pre).Authorised) ∧
      ∀ is n, ¬((access accounts).run is).Timely (.register n) →
        ∃ ls, (∀ l ∈ ls, AccessLabel.finishes l = true) ∧
          ((access accounts).run (is ++ .register n :: ls)).Idle ∧
          ¬((access accounts).run (is ++ .register n :: ls)).Authorised := by
  refine ⟨fun is hg pre hpre hidle => ?_, fun is n hlate => ?_⟩
  · refine Access.Answerable.authorised ?_ hidle
    exact Machine.guarded_invariant (fun oc hoc => (by cases hoc)) (fun s l hl h => h.step hl)
      (hg.of_prefix hpre)
  · obtain ⟨oc, hdoomed⟩ := Access.doomed_of_late hlate
    obtain ⟨ls, hls, hidle⟩ :=
      Access.exists_finish accounts (((access accounts).run is).step (.register n))
    have hrun : (access accounts).run (is ++ .register n :: ls) =
        (access accounts).runFrom (((access accounts).run is).step (.register n)) ls := by
      rw [Machine.run_append]
      rfl
    refine ⟨ls, hls, ?_, ?_⟩
    · rw [hrun]
      exact hidle
    · rw [hrun]
      exact (hdoomed.runFrom hls).unauthorised hidle

namespace Access

instance (s : Access) : Decidable s.Idle := inferInstanceAs (Decidable (_ ∧ _))

instance (s : Access) : Decidable s.Authorised :=
  inferInstanceAs (Decidable (∀ oc ∈ s.admin.conns, s.admin.auth.Accepts oc.token))

instance (s : Access) (l : AccessLabel) : Decidable (s.Timely l) :=
  match l with
  | .register n => inferInstanceAs (Decidable (∀ oc ∈ s.attempts[n]?, s.InTime oc.token))
  | .login .. | .validate .. | .upgradeFailed _ | .close _ | .logout _ | .sweep _ | .revoke _ =>
    isTrue trivial

end Access

/-- A connection is registered while the logout has yet to close it, another one in time. -/
def timelyObservers : List AccessLabel :=
  [.login "root" "pw" "t1", .validate 0 "t1" "", .logout "t1", .register 0, .sweep 0, .revoke 0,
    .login "root" "pw" "t2", .validate 1 "t2" "", .register 0]

theorem timely_observers_authorised :
    ((access (AList.insert "root" "pw" ∅)).run timelyObservers).Authorised :=
  (observers_are_authorised_iff _).1 timelyObservers (by decide +kernel) timelyObservers
    (List.prefix_refl _) (by decide +kernel)

/-- A token is valid when its connection is checked, and replaced by a new login or given back by
a logout before the connection is registered. -/
theorem late_observer_keeps_access :
    let root : GoMap String String := AList.insert "root" "pw" ∅
    let replaced := (access root).run [.login "root" "pw" "t1", .validate 0 "t1" "",
      .login "root" "pw" "t2", .register 0]
    let loggedOut := (access root).run [.login "root" "pw" "t1", .validate 0 "t1" "", .logout "t1",
      .sweep 0, .register 0, .revoke 0]
    replaced.Idle ∧ ¬replaced.Authorised ∧ loggedOut.Idle ∧ ¬loggedOut.Authorised := by
  decide +kernel

end Meetkit
