import Meetkit.Model.Admin

/-! The requests of the admin server that decide which observe connections there are,
interleaved. `handleWS` checks its token under the lock of `Auth` and registers under
the one of the session manager, an upgrade later; a logout closes the connections it
finds before it gives its token back. -/

namespace Meetkit

/-- A logout whose token was valid. -/
structure PendingLogout where
  token : Token
  /-- `leaveAllByToken` has run. -/
  swept : Bool := false
  deriving DecidableEq

structure Access where
  admin : Admin := {}
  /-- The connections whose token was valid and which are not registered yet. -/
  attempts : List AdminConn := []
  logouts : List PendingLogout := []

inductive AccessLabel
  /-- A login, which kicks the token it replaces under the lock of `Auth`. -/
  | login (username password : String) (token : Token)
  /-- `handleWS` up to the upgrade. -/
  | validate (id : ℕ) (query header : String)
  | upgradeFailed (n : ℕ)
  | register (n : ℕ)
  /-- `closeConn` of one connection, which unregisters it. -/
  | close (id : ℕ)
  /-- A logout validates its token. -/
  | logout (header : String)
  /-- Its `leaveAllByToken`. -/
  | sweep (n : ℕ)
  /-- Its `Auth.Logout`. -/
  | revoke (n : ℕ)

namespace Access

def setAdmin (s : Access) (a : Admin) : Access := { s with admin := a }

def step (s : Access) : AccessLabel → Access
  | .login username password token => s.setAdmin (s.admin.handleLogin username password token).settle
  | .validate id query header =>
    match s.admin.auth.validateToken (requestToken query header) with
    | .error _ => s
    | .ok _ => { s with attempts := s.attempts ++ [⟨id, requestToken query header, false⟩] }
  | .upgradeFailed n => { s with attempts := s.attempts.eraseIdx n }
  | .register n =>
    match s.attempts[n]? with
    | none => s
    | some oc =>
      { s with
        admin := { s.admin with conns := oc :: s.admin.conns }
        attempts := s.attempts.eraseIdx n }
  | .close id => s.setAdmin { s.admin with conns := s.admin.conns.filter fun oc => oc.id ≠ id }
  | .logout header =>
    match s.admin.auth.validateToken (Text.trimSpace header) with
    | .error _ => s
    | .ok _ => { s with logouts := s.logouts ++ [{ token := Text.trimSpace header }] }
  | .sweep n =>
    match s.logouts[n]? with
    | none => s
    | some l =>
      if l.swept then s
      else { s with
        admin := s.admin.leaveAllByToken l.token
        logouts := s.logouts.set n { l with swept := true } }
  | .revoke n =>
    match s.logouts[n]? with
    | none => s
    | some l =>
      if l.swept then
        { s with
          admin := { s.admin with auth := (s.admin.auth.logout l.token).1 }
          logouts := s.logouts.eraseIdx n }
      else s

end Access

def access (accounts : GoMap String String) : Machine Access AccessLabel where
  init := { admin := { auth := { accounts } } }
  step := Access.step

end Meetkit
