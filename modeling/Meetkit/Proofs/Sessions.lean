import Meetkit.Model.Sessions

/-! One session per account. The two maps of `Auth` stay inverse to each other, and
both say what the history of the calls says. -/

namespace Meetkit

/-- The account has logged in with the token and has neither logged in again nor
logged out since. -/
def SessionOf (log : List AuthReply) (username : String) (token : Token) : Prop :=
  ∃ before after, log = before ++ .loggedIn username token :: after ∧
    (∀ t, .loggedIn username t ∉ after) ∧ .loggedOut token ∉ after

theorem sessionOf_snoc {log : List AuthReply} {r : AuthReply} {u : String} {t : Token} :
    SessionOf (log ++ [r]) u t ↔ r = .loggedIn u t ∨
      SessionOf log u t ∧ (∀ x, r ≠ .loggedIn u x) ∧ r ≠ .loggedOut t := by
  constructor
  · rintro ⟨before, after, hlog, hin, hout⟩
    rcases List.eq_nil_or_concat after with rfl | ⟨after, x, rfl⟩
    · exact .inl (List.singleton_inj.1 (List.append_inj' hlog rfl).2)
    · rw [List.concat_eq_append] at hlog hin hout
      rw [← List.cons_append, ← List.append_assoc] at hlog
      obtain ⟨rfl, hx⟩ := List.append_inj' hlog rfl
      obtain rfl : r = x := List.singleton_inj.1 hx
      refine .inr ⟨⟨before, after, rfl, fun y hy => hin y ?_, fun hy => hout ?_⟩, ?_, ?_⟩
      · exact List.mem_append_left _ hy
      · exact List.mem_append_left _ hy
      · rintro y rfl
        exact hin y (by simp)
      · rintro rfl
        exact hout (by simp)
  · rintro (rfl | ⟨⟨before, after, rfl, hin, hout⟩, hr, hr'⟩)
    · exact ⟨log, [], rfl, by simp, by simp⟩
    · refine ⟨before, after ++ [r], by simp, fun x hx => ?_, fun hx => ?_⟩
      · rcases List.mem_append.1 hx with hx | hx
        · exact hin x hx
        · exact hr x (List.mem_singleton.1 hx).symm
      · rcases List.mem_append.1 hx with hx | hx
        · exact hout hx
        · exact hr' (List.mem_singleton.1 hx).symm

theorem not_sessionOf_nil {u : String} {t : Token} : ¬ SessionOf [] u t := by
  rintro ⟨before, after, h, -, -⟩
  simp at h

namespace Auth

/-- What a successful login of `u` does to the two maps. -/
structure LoggedIn (a : Auth) (u : String) (t : Token) (a' : Auth) : Prop where
  accounts : a'.accounts = a.accounts
  sessions : ∀ x, a'.sessions.lookup x =
    if x = t then some u else if a.byUser.lookup u = some x then none else a.sessions.lookup x
  byUser : ∀ v, a'.byUser.lookup v = if v = u then some t else a.byUser.lookup v

/-- What a successful logout of `u` by its token `t` does to them. -/
structure LoggedOut (a : Auth) (u : String) (t : Token) (a' : Auth) : Prop where
  holder : a.sessions.lookup t = some u
  accounts : a'.accounts = a.accounts
  sessions : ∀ x, a'.sessions.lookup x = if x = t then none else a.sessions.lookup x
  byUser : ∀ v, a'.byUser.lookup v = if v = u then none else a.byUser.lookup v

theorem login_cases (a : Auth) (u p : String) (t : Token) :
    (∃ e, a.login u p t = (a, none, .error e)) ∨
      ∃ a', a.login u p t = (a', a.byUser.lookup u, .ok t) ∧ a.LoggedIn u t a' := by
  unfold login
  split_ifs with h1 h2
  · exact .inl ⟨_, rfl⟩
  · exact .inl ⟨_, rfl⟩
  · refine .inr ⟨_, rfl, ?_⟩
    cases hold : a.byUser.lookup u with
    | none =>
      refine ⟨rfl, fun x => ?_, fun v => ?_⟩
      · rw [GoMap.lookup_insert_iff]
        simp [hold]
      · rw [GoMap.lookup_insert_iff]
    | some old =>
      refine ⟨rfl, fun x => ?_, fun v => ?_⟩
      · rw [GoMap.lookup_insert_iff, GoMap.lookup_erase_iff]
        simp only [hold, Option.some.injEq, eq_comm]
      · rw [GoMap.lookup_insert_iff, GoMap.lookup_erase_iff]
        split_ifs <;> rfl

theorem logout_cases (a : Auth) (t : Token) :
    (∃ e, a.logout t = (a, some e)) ∨ ∃ u a', a.logout t = (a', none) ∧ a.LoggedOut u t a' := by
  unfold logout
  split_ifs with h
  · exact .inl ⟨_, rfl⟩
  · cases hu : a.sessions.lookup t with
    | none => exact .inl ⟨_, rfl⟩
    | some u =>
      refine .inr ⟨u, _, rfl, hu, rfl, fun x => ?_, fun v => ?_⟩
      · exact GoMap.lookup_erase_iff ..
      · exact GoMap.lookup_erase_iff ..

end Auth

namespace Sessions

variable {uuid : ℕ → Token} {s : Sessions}

/-- The maps are inverse to each other, hold tokens that were drawn, and say what the
history says. -/
structure Sound (uuid : ℕ → Token) (s : Sessions) : Prop where
  inverse : ∀ t u, s.auth.sessions.lookup t = some u ↔ s.auth.byUser.lookup u = some t
  drawn : ∀ t u, s.auth.sessions.lookup t = some u → ∃ n < s.drawn, uuid n = t
  history : ∀ t u, s.auth.sessions.lookup t = some u ↔ SessionOf s.log u t

theorem Sound.record (hs : s.Sound uuid) {r : AuthReply} (hin : ∀ u t, r ≠ .loggedIn u t)
    (hout : ∀ t, r ≠ .loggedOut t) : (s.record r).Sound uuid where
  inverse := hs.inverse
  drawn := hs.drawn
  history t u := by
    have hlog : SessionOf (s.log ++ [r]) u t ↔ SessionOf s.log u t := by
      rw [sessionOf_snoc]
      simp [hin, hout]
    exact (hs.history t u).trans hlog.symm

theorem Sound.login (hs : s.Sound uuid) (huuid : Function.Injective uuid) {u : String} {a : Auth}
    {kicks : List Token} (ha : s.auth.LoggedIn u (uuid s.drawn) a) :
    (({ s with auth := a, drawn := s.drawn + 1, kicks } : Sessions).record
      (.loggedIn u (uuid s.drawn))).Sound uuid := by
  -- the new token is nobody's yet
  have hfresh : ∀ v, s.auth.byUser.lookup v ≠ some (uuid s.drawn) := by
    intro v hv
    obtain ⟨n, hn, he⟩ := hs.drawn _ v ((hs.inverse _ v).2 hv)
    exact absurd (huuid he) hn.ne
  have hinverse : ∀ t v, a.sessions.lookup t = some v ↔ a.byUser.lookup v = some t := by
    intro t v
    rw [ha.sessions, ha.byUser]
    by_cases ht : t = uuid s.drawn
    · subst ht
      by_cases hv : v = u
      · simp [hv]
      · simp [hv, hfresh v, Ne.symm hv]
    · rw [if_neg ht]
      by_cases hv : v = u
      · subst hv
        simp [hs.inverse, Ne.symm ht]
      · rw [if_neg hv]
        split_ifs with hold
        · rw [← hs.inverse, (hs.inverse t u).2 hold]
          simp [Ne.symm hv]
        · exact hs.inverse t v
  refine ⟨hinverse, fun t v ht => ?_, fun t v => ?_⟩
  · change a.sessions.lookup t = some v at ht
    rw [ha.sessions] at ht
    split_ifs at ht with h1
    · exact ⟨s.drawn, Nat.lt_succ_self _, h1.symm⟩
    · obtain ⟨n, hn, he⟩ := hs.drawn t v ht
      exact ⟨n, hn.trans (Nat.lt_succ_self _), he⟩
  · refine (hinverse t v).trans ?_
    change _ ↔ SessionOf (s.log ++ [_]) v t
    rw [ha.byUser, sessionOf_snoc, ← hs.history]
    by_cases hv : v = u
    · subst hv
      simp
    · rw [if_neg hv, ← hs.inverse]
      simp [Ne.symm hv]

theorem Sound.logout (hs : s.Sound uuid) {u : String} {t : Token} {a : Auth}
    (ha : s.auth.LoggedOut u t a) : (({ s with auth := a } : Sessions).record (.loggedOut t)).Sound uuid := by
  have hinverse : ∀ x v, a.sessions.lookup x = some v ↔ a.byUser.lookup v = some x := by
    intro x v
    have hholder := (hs.inverse t u).1 ha.holder
    rw [ha.sessions, ha.byUser]
    by_cases hx : x = t
    · subst hx
      by_cases hv : v = u
      · simp [hv]
      · rw [if_pos rfl, if_neg hv, ← hs.inverse, ha.holder]
        simp [Ne.symm hv]
    · rw [if_neg hx, hs.inverse]
      by_cases hv : v = u
      · subst hv
        rw [if_pos rfl, hholder]
        simp [Ne.symm hx]
      · rw [if_neg hv]
  refine ⟨hinverse, fun x v hx => ?_, fun x v => ?_⟩
  · change a.sessions.lookup x = some v at hx
    rw [ha.sessions] at hx
    split_ifs at hx
    exact hs.drawn x v hx
  · change a.sessions.lookup x = some v ↔ SessionOf (s.log ++ [_]) v x
    rw [ha.sessions, sessionOf_snoc, ← hs.history]
    by_cases hx : x = t
    · simp [hx]
    · simp [hx, Ne.symm hx]

theorem step_cases (uuid : ℕ → Token) (s : Sessions) (c : AuthCall) :
    (∃ r, r.failed = true ∧ s.step uuid c = s.record r) ∨
    (∃ t u, c = .validateToken t ∧ s.step uuid c = s.record (.validated t (.ok u))) ∨
    (∃ u p a, c = .login u p ∧ s.auth.LoggedIn u (uuid s.drawn) a ∧
      s.step uuid c = ({ s with
        auth := a, drawn := s.drawn + 1
        kicks := s.kicks ++ (s.auth.byUser.lookup u).toList } : Sessions).record
          (.loggedIn u (uuid s.drawn))) ∨
    ∃ u t a, c = .logout t ∧ s.auth.LoggedOut u t a ∧
      s.step uuid c = ({ s with auth := a } : Sessions).record (.loggedOut t) := by
  cases c with
  | login u p =>
    rcases s.auth.login_cases u p (uuid s.drawn) with ⟨e, he⟩ | ⟨a, he, ha⟩
    · refine .inl ⟨.loginFailed u e, rfl, ?_⟩
      simp [step, login, he]
    · refine .inr (.inr (.inl ⟨u, p, a, rfl, ha, ?_⟩))
      simp [step, login, he]
  | logout t =>
    rcases s.auth.logout_cases t with ⟨e, he⟩ | ⟨u, a, he, ha⟩
    · refine .inl ⟨.logoutFailed t e, rfl, ?_⟩
      simp [step, logout, he]
    · refine .inr (.inr (.inr ⟨u, t, a, rfl, ha, ?_⟩))
      simp [step, logout, he]
  | validateToken t =>
    cases hv : s.auth.validateToken t with
    | error e => exact .inl ⟨.validated t (.error e), rfl, by rw [step, hv]⟩
    | ok u => exact .inr (.inl ⟨t, u, rfl, by rw [step, hv]⟩)

theorem Sound.step (hs : s.Sound uuid) (huuid : Function.Injective uuid) (c : AuthCall) :
    (s.step uuid c).Sound uuid := by
  rcases step_cases uuid s c with ⟨r, hr, he⟩ | ⟨t, u, rfl, he⟩ | ⟨u, p, a, rfl, ha, he⟩ |
    ⟨u, t, a, rfl, ha, he⟩
  · rw [he]
    refine hs.record ?_ ?_
    · rintro u t rfl
      cases hr
    · rintro t rfl
      cases hr
  · rw [he]
    exact hs.record (by simp) (by simp)
  · rw [he]
    exact hs.login huuid ha
  · rw [he]
    exact hs.logout ha

theorem init_sound (uuid : ℕ → Token) (accounts : GoMap String String) :
    (sessions uuid accounts).init.Sound uuid where
  inverse t u := by simp [sessions]
  drawn t u ht := by simp [sessions] at ht
  history t u := by simp [sessions, not_sessionOf_nil]

theorem step_accounts (uuid : ℕ → Token) (s : Sessions) (c : AuthCall) :
    (s.step uuid c).auth.accounts = s.auth.accounts := by
  rcases step_cases uuid s c with ⟨r, -, he⟩ | ⟨t, u, -, he⟩ | ⟨u, p, a, -, ha, he⟩ |
    ⟨u, t, a, -, ha, he⟩
  · rw [he]; rfl
  · rw [he]; rfl
  · rw [he]; exact ha.accounts
  · rw [he]; exact ha.accounts

theorem Sound.validateToken (hs : s.Sound uuid) (hne : ∀ n, uuid n ≠ "")
    (hacc : s.auth.accounts.entries ≠ []) (t : Token) (u : String) :
    s.auth.validateToken t = .ok u ↔ s.auth.sessions.lookup t = some u := by
  unfold Auth.validateToken
  rw [if_neg hacc]
  split_ifs with ht
  · refine ⟨nofun, fun h => ?_⟩
    obtain ⟨n, -, he⟩ := hs.drawn t u h
    exact absurd (he.trans ht) (hne n)
  · cases s.auth.sessions.lookup t <;> simp

end Sessions

/-- Whose session a call is about. -/
def AuthCall.user (s : Sessions) : AuthCall → Option String
  | .login username _ => some username
  | .logout token | .validateToken token => s.auth.sessions.lookup token

/-- What the two maps say of the others is untouched by a call. -/
theorem Sessions.Sound.others {uuid : ℕ → Token} {s : Sessions} (hs : s.Sound uuid)
    (huuid : Function.Injective uuid) {c : AuthCall} {v : String} (hv : c.user s ≠ some v) (t : Token) :
    (s.step uuid c).auth.sessions.lookup t = some v ↔ s.auth.sessions.lookup t = some v := by
  rw [(hs.step huuid c).inverse, hs.inverse]
  rcases Sessions.step_cases uuid s c with ⟨r, -, he⟩ | ⟨x, u, -, he⟩ | ⟨u, p, a, rfl, ha, he⟩ |
    ⟨u, x, a, rfl, ha, he⟩
  · rw [he]; rfl
  · rw [he]; rfl
  · have huv : v ≠ u := fun h => hv (by rw [h]; rfl)
    rw [he]
    change a.byUser.lookup v = some t ↔ _
    rw [ha.byUser, if_neg huv]
  · have huv : v ≠ u := fun h => hv (by rw [h]; exact ha.holder)
    rw [he]
    change a.byUser.lookup v = some t ↔ _
    rw [ha.byUser, if_neg huv]

/-- Single-session login, over every sequence of calls. -/
theorem single_session_login {uuid : ℕ → Token} {accounts : GoMap String String}
    (hacc : accounts.entries ≠ []) (huuid : Function.Injective uuid) (hne : ∀ n, uuid n ≠ "")
    (cs : List AuthCall) :
    let s := (sessions uuid accounts).run cs
    (∀ t u, s.auth.validateToken t = .ok u ↔ SessionOf s.log u t) ∧
    (∀ t u, s.auth.sessions.lookup t = some u ↔ s.auth.byUser.lookup u = some t) ∧
    ∀ c, ∃ r, (s.step uuid c).log = s.log ++ [r] ∧
      (r.failed = true → (s.step uuid c).auth = s.auth) ∧
      (∀ u t, r = .loggedIn u t → ∀ old, s.auth.validateToken old = .ok u →
        (s.step uuid c).kicks = s.kicks ++ [old]) ∧
      ((∀ u t, r = .loggedIn u t → ∀ old, s.auth.validateToken old ≠ .ok u) →
        (s.step uuid c).kicks = s.kicks) ∧
      ∀ v, c.user s ≠ some v → ∀ t,
        (s.step uuid c).auth.validateToken t = .ok v ↔ s.auth.validateToken t = .ok v := by
  intro s
  have hinv : s.Sound uuid ∧ s.auth.accounts.entries ≠ [] := by
    refine Machine.run_invariant (P := fun s : Sessions => s.Sound uuid ∧ s.auth.accounts.entries ≠ [])
      ⟨Sessions.init_sound uuid accounts, hacc⟩ (fun s c hs => ⟨hs.1.step huuid c, ?_⟩) cs
    change (Sessions.step uuid s c).auth.accounts.entries ≠ []
    rw [Sessions.step_accounts]
    exact hs.2
  obtain ⟨hs, ha⟩ := hinv
  have hvalid := hs.validateToken hne ha
  refine ⟨fun t u => (hvalid t u).trans (hs.history t u), hs.inverse, fun c => ?_⟩
  have hothers : ∀ v, c.user s ≠ some v → ∀ t,
      (s.step uuid c).auth.validateToken t = .ok v ↔ s.auth.validateToken t = .ok v := by
    intro v hv t
    have ha' : (s.step uuid c).auth.accounts.entries ≠ [] := by rwa [Sessions.step_accounts]
    rw [(hs.step huuid c).validateToken hne ha', hvalid]
    exact hs.others huuid hv t
  rcases Sessions.step_cases uuid s c with ⟨r, hr, he⟩ | ⟨t, u, rfl, he⟩ | ⟨u, p, a, rfl, hlog, he⟩ |
    ⟨u, t, a, rfl, hlog, he⟩
  · refine ⟨r, by rw [he]; rfl, fun _ => by rw [he]; rfl, ?_, fun _ => by rw [he]; rfl, hothers⟩
    rintro u t rfl
    cases hr
  · exact ⟨.validated t (.ok u), by rw [he]; rfl, by simp [AuthReply.failed], by simp,
      fun _ => by rw [he]; rfl, hothers⟩
  · refine ⟨.loggedIn u (uuid s.drawn), by rw [he]; rfl, by simp [AuthReply.failed], ?_,
      fun hnone => ?_, hothers⟩
    · rintro u t h old hold
      cases h
      rw [hvalid, hs.inverse] at hold
      rw [he]
      change s.kicks ++ (s.auth.byUser.lookup u).toList = _
      rw [hold]
      rfl
    · rw [he]
      change s.kicks ++ (s.auth.byUser.lookup u).toList = _
      cases hold : s.auth.byUser.lookup u with
      | none => simp
      | some old =>
        have hok := (hvalid old u).2 ((hs.inverse old u).2 hold)
        exact absurd hok (hnone u _ rfl old)
  · exact ⟨.loggedOut t, by rw [he]; rfl, by simp [AuthReply.failed], by simp,
      fun _ => by rw [he]; rfl, hothers⟩

/-- Two logins of one account, a logout of the other. -/
theorem admin_and_ops_log_in :
    let s := (sessions (fun n => String.ofList (List.replicate (n + 1) 'x'))
      (AList.insert "ops" "pass2" (AList.singleton "admin" "pass1"))).run
        [.login "admin" "pass1", .login "ops" "pass2", .login "admin" "pass1", .logout "xx"]
    (∀ t u, s.auth.validateToken t = .ok u ↔ SessionOf s.log u t) ∧ s.kicks = ["x"] := by
  refine ⟨(single_session_login (by decide) ?_ ?_ _).1, by decide⟩
  · intro m n h
    have hlen := congrArg List.length (String.ofList_injective h)
    simpa using hlen
  · intro n h
    have hlen := congrArg (fun s : String => s.toList.length) h
    simp at hlen

end Meetkit
