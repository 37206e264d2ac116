import Meetkit.Model.Admin

/-! Revoked tokens and the connections opened with them. A new login of an account
reaches both kinds of connection. A logout reaches the observe connections only, so
the dashboard feed stays authorised exactly as long as nobody logs out under it. -/

namespace Meetkit

namespace Auth

variable {a : Auth} {t x : Token}

def Accepts (a : Auth) (t : Token) : Prop := ∃ username, a.validateToken t = .ok username

theorem accepts_iff : a.Accepts t ↔
    a.accounts.entries ≠ [] ∧ t ≠ "" ∧ (a.sessions.lookup t).isSome := by
  unfold Accepts validateToken
  split_ifs with h1 h2
  · simp [h1]
  · simp [h2]
  · cases a.sessions.lookup t <;> simp [h1, h2]

instance : Decidable (a.Accepts t) := decidable_of_iff _ accepts_iff.symm

/-- A login costs nobody its token but the one it kicks. -/
theorem login_accepts (username password : String) (token : Token) (hx : a.Accepts x) :
    (a.login username password token).1.Accepts x ∨ (a.login username password token).2.1 = some x := by
  rw [accepts_iff] at hx
  unfold login
  split_ifs with h1 h2
  · exact absurd h1 hx.1
  · exact Or.inl (accepts_iff.2 hx)
  · cases hold : a.byUser.lookup username with
    | none =>
      refine Or.inl (accepts_iff.2 ⟨hx.1, hx.2.1, ?_⟩)
      simp only [GoMap.lookup_insert_iff]
      split_ifs
      · rfl
      · exact hx.2.2
    | some old =>
      by_cases hxo : x = old
      · exact Or.inr (by rw [hxo])
      · refine Or.inl (accepts_iff.2 ⟨hx.1, hx.2.1, ?_⟩)
        simp only [GoMap.lookup_insert_iff, GoMap.lookup_erase_iff, if_neg hxo]
        split_ifs
        · rfl
        · exact hx.2.2

theorem logout_accounts (a : Auth) (t : Token) : (a.logout t).1.accounts = a.accounts := by
  unfold logout
  split_ifs
  · rfl
  · split <;> rfl

theorem logout_lookup (a : Auth) (t x : Token) : (a.logout t).1.sessions.lookup x =
    if a.accounts.entries ≠ [] ∧ x = t then none else a.sessions.lookup x := by
  unfold logout
  split_ifs with h1 h2 h2
  · exact absurd h1 h2.1
  · rfl
  · obtain ⟨-, rfl⟩ := h2
    cases hl : a.sessions.lookup x with
    | none => exact hl
    | some u => exact AList.lookup_erase _ _
  · have hx : x ≠ t := fun h => h2 ⟨h1, h⟩
    cases hl : a.sessions.lookup t with
    | none => rfl
    | some u => exact AList.lookup_erase_ne hx

/-- A logout costs its own token. -/
theorem logout_accepts : (a.logout t).1.Accepts x ↔ a.Accepts x ∧ x ≠ t := by
  rw [accepts_iff, accepts_iff, logout_accounts, logout_lookup]
  by_cases hx : a.accounts.entries ≠ [] ∧ x = t
  · simp [hx.1, hx.2]
  · rw [if_neg hx]
    constructor
    · rintro ⟨h1, h2, h3⟩
      exact ⟨⟨h1, h2, h3⟩, fun h => hx ⟨h1, h⟩⟩
    · exact fun h => h.1

end Auth

namespace Admin

variable {s : Admin} {c : AdminConn}

/-- Every registered dashboard connection carries a token that is accepted now. -/
def FeedAuthorised (s : Admin) : Prop := ∀ c ∈ s.clients, s.auth.Accepts c.token

/-- A logout that succeeds is not of a token that a dashboard connection carries. -/
def LogoutOffFeed (s : Admin) : Request → Prop
  | .logout header => s.auth.Accepts (Text.trimSpace header) →
      ∀ c ∈ s.clients, c.token ≠ Text.trimSpace header
  | _ => True

instance (s : Admin) (r : Request) : Decidable (s.LogoutOffFeed r) := by
  cases r <;> unfold LogoutOffFeed <;> infer_instance

theorem mem_settle : c ∈ s.settle.clients ↔ c ∈ s.clients ∧ c.closed = false := by
  simp [settle]

/-- Between requests no registered connection is closed. -/
theorem step_open (s : Admin) (r : Request) : ∀ c ∈ (s.step r).clients, c.closed = false :=
  fun _ hc => (mem_settle.1 hc).2

theorem handleLogout_of_accepts {header : String} (h : s.auth.Accepts (Text.trimSpace header)) :
    s.handleLogout header = { s.leaveAllByToken (Text.trimSpace header) with
      auth := (s.auth.logout (Text.trimSpace header)).1 } := by
  obtain ⟨username, hu⟩ := h
  simp only [handleLogout, hu]
  rfl

theorem handleLogout_of_not_accepts {header : String}
    (h : ¬ s.auth.Accepts (Text.trimSpace header)) : s.handleLogout header = s := by
  cases hv : s.auth.validateToken (Text.trimSpace header) with
  | error e => simp only [handleLogout, hv]
  | ok username => exact absurd ⟨username, hv⟩ h

/-- A login leaves the connections of the kicked token closed and all others alone. -/
theorem handleLogin_cases (s : Admin) (username password : String) (token : Token) :
    let next := s.auth.login (Text.trimSpace username) password token
    (s.handleLogin username password token).auth = next.1 ∧
      (∀ c ∈ (s.handleLogin username password token).settle.clients,
        c ∈ s.clients ∧ next.2.1 ≠ some c.token) ∧
      ∀ oc ∈ (s.handleLogin username password token).conns, oc ∈ s.conns ∧ next.2.1 ≠ some oc.token := by
  unfold handleLogin
  rcases s.auth.login (Text.trimSpace username) password token with ⟨auth, kicked, result⟩
  cases kicked with
  | none => exact ⟨rfl, fun c hc => ⟨(mem_settle.1 hc).1, by simp⟩, fun oc hoc => ⟨hoc, by simp⟩⟩
  | some old =>
    refine ⟨rfl, fun c hc => ?_, fun oc hoc => ?_⟩
    · obtain ⟨hmem, hopen⟩ := mem_settle.1 hc
      obtain ⟨c₀, hc₀, heq⟩ := List.mem_map.1 hmem
      split_ifs at heq with hold
      · rw [← heq] at hopen; cases hopen
      · subst heq
        exact ⟨hc₀, fun h => hold (Option.some.inj h).symm⟩
    · obtain ⟨hmem, hne⟩ := List.mem_filter.1 hoc
      exact ⟨hmem, fun h => by simp [(Option.some.inj h).symm] at hne⟩

theorem FeedAuthorised.step (h : s.FeedAuthorised) {r : Request} (hr : s.LogoutOffFeed r) :
    (s.step r).FeedAuthorised := by
  intro c hc
  cases r with
  | login username password token =>
    obtain ⟨hauth, hclients, -⟩ := handleLogin_cases s username password token
    obtain ⟨hold, hkicked⟩ := hclients c hc
    have haccepts : (s.handleLogin username password token).auth.Accepts c.token := by
      rw [hauth]
      exact (Auth.login_accepts _ password token (h c hold)).resolve_right hkicked
    exact haccepts
  | logout header =>
    have hmem := (mem_settle.1 hc).1
    by_cases hv : s.auth.Accepts (Text.trimSpace header)
    · simp only [Admin.step, handle, handleLogout_of_accepts hv] at hmem ⊢
      exact Auth.logout_accepts.2 ⟨h c hmem, hr hv c hmem⟩
    · simp only [Admin.step, handle, handleLogout_of_not_accepts hv] at hmem ⊢
      exact h c hmem
  | openDashboard id query header =>
    have hmem := (mem_settle.1 hc).1
    simp only [Admin.step, handle, handleWS] at hmem ⊢
    split at hmem
    · exact h c hmem
    · rename_i username hv
      rcases List.mem_cons.1 hmem with rfl | hmem
      · exact ⟨username, hv⟩
      · exact h c hmem
  | closeDashboard id => exact h c (List.mem_filter.1 (mem_settle.1 hc).1).1
  | openObserve id query header =>
    have hmem := (mem_settle.1 hc).1
    simp only [Admin.step, handle, handleObserveWS] at hmem ⊢
    split at hmem <;> exact h c hmem
  | closeObserve id => exact h c (mem_settle.1 hc).1

/-- A logout under an open dashboard connection leaves it registered. -/
theorem LogoutOffFeed.of_step {r : Request} (hopen : ∀ c ∈ s.clients, c.closed = false)
    (h : (s.step r).FeedAuthorised) : s.LogoutOffFeed r := by
  cases r with
  | logout header =>
    intro hv c hc heq
    have hstep : s.step (.logout header) = ({ s.leaveAllByToken (Text.trimSpace header) with
        auth := (s.auth.logout (Text.trimSpace header)).1 } : Admin).settle := by
      rw [Admin.step, handle, handleLogout_of_accepts hv]
    rw [hstep] at h
    have haccepts : (s.auth.logout (Text.trimSpace header)).1.Accepts c.token :=
      h c (mem_settle.2 ⟨hc, hopen c hc⟩)
    exact (Auth.logout_accepts.1 haccepts).2 heq
  | _ => trivial

/-- Every registered observe connection carries a token that is accepted now. -/
def ObserveAuthorised (s : Admin) : Prop := ∀ oc ∈ s.conns, s.auth.Accepts oc.token

theorem ObserveAuthorised.step (h : s.ObserveAuthorised) (r : Request) :
    (s.step r).ObserveAuthorised := by
  intro oc hoc
  cases r with
  | login username password token =>
    obtain ⟨hauth, -, hconns⟩ := handleLogin_cases s username password token
    obtain ⟨hold, hkicked⟩ := hconns oc hoc
    have haccepts : (s.handleLogin username password token).auth.Accepts oc.token := by
      rw [hauth]
      exact (Auth.login_accepts _ password token (h oc hold)).resolve_right hkicked
    exact haccepts
  | logout header =>
    by_cases hv : s.auth.Accepts (Text.trimSpace header)
    · simp only [Admin.step, handle, handleLogout_of_accepts hv] at hoc ⊢
      obtain ⟨hmem, hne⟩ := List.mem_filter.1 hoc
      exact Auth.logout_accepts.2 ⟨h oc hmem, by simpa using hne⟩
    · simp only [Admin.step, handle, handleLogout_of_not_accepts hv] at hoc ⊢
      exact h oc hoc
  | openDashboard id query header =>
    simp only [Admin.step, handle, handleWS] at hoc ⊢
    split at hoc <;> exact h oc hoc
  | closeDashboard id => exact h oc hoc
  | openObserve id query header =>
    simp only [Admin.step, handle, handleObserveWS] at hoc ⊢
    split at hoc
    · exact h oc hoc
    · rename_i username hv
      rcases List.mem_cons.1 hoc with rfl | hmem
      · exact ⟨username, hv⟩
      · exact h oc hmem
  | closeObserve id => exact h oc (List.mem_filter.1 hoc).1

end Admin

section Runs

variable (accounts : GoMap String String)

/-- Observe connections never outlive their token. -/
theorem observe_authorised (rs : List Request) : ((adminServer accounts).run rs).ObserveAuthorised :=
  Machine.run_invariant (P := Admin.ObserveAuthorised) (fun _ hoc => absurd hoc List.not_mem_nil)
    (fun _ r h => h.step r) rs

/-- The dashboard feed is authorised at every moment of a run exactly if nobody logs out
with the token of a registered dashboard connection. -/
theorem feed_authorised_iff (rs : List Request) :
    (∀ pre, pre <+: rs → ((adminServer accounts).run pre).FeedAuthorised) ↔
      (adminServer accounts).Guarded Admin.LogoutOffFeed rs := by
  have hopen : ∀ rs, ∀ c ∈ ((adminServer accounts).run rs).clients, c.closed = false := by
    intro rs
    refine Machine.run_invariant (P := fun s : Admin => ∀ c ∈ s.clients, c.closed = false)
      (fun _ hc => absurd hc List.not_mem_nil) (fun s r _ => Admin.step_open s r) rs
  constructor
  · intro h
    refine Machine.guarded_of_splits fun pre r post hsplit => ?_
    refine Admin.LogoutOffFeed.of_step (hopen pre) ?_
    have hsnoc := h (pre ++ [r]) ⟨post, by rw [hsplit]; simp⟩
    rw [Machine.run_snoc] at hsnoc
    exact hsnoc
  · intro hg pre hpre
    exact Machine.guarded_invariant (P := Admin.FeedAuthorised) (fun _ hc => absurd hc List.not_mem_nil)
      (fun _ _ hr h => h.step hr) (hg.of_prefix hpre)

/-- A logout while the dashboard is open. -/
theorem feed_outlives_logout : ¬ ∀ (accounts : GoMap String String) (rs : List Request),
    ((adminServer accounts).run rs).FeedAuthorised := by
  intro h
  have hc := h (AList.insert "admin" "secret" ∅) [.login "admin" "secret" "t",
    .openDashboard 0 "t" "", .logout "t"] ⟨0, "t", false⟩ (by decide)
  exact absurd hc (by decide)

end Runs

end Meetkit
