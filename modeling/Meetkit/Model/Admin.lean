import Meetkit.Lib.GoMap
import Meetkit.Lib.Machine
import Meetkit.Lib.Text

/-! Admin sessions. A login gives out a token, at most one per account; the dashboard
hub and the observe session manager keep the connections that were opened with one.
A step is one complete request, after which kicked dashboard connections have run
their own `close`. -/

namespace Meetkit

abbrev Token := String

def errNotConfigured := "未配置管理员账号"
def errInvalidAccount := "管理员名称或密码错误"
def errInvalidSession := "登录已失效，请重新登录"

structure Auth where
  accounts : GoMap String String := ∅
  /-- token → username -/
  sessions : GoMap Token String := ∅
  /-- username → token -/
  byUser : GoMap String Token := ∅

namespace Auth

/-- The token that the kick handler is called with, and what `Login` returns. `token`
is the next `uuid.NewString`. -/
def login (a : Auth) (username password : String) (token : Token) :
    Auth × Option Token × Except String Token :=
  if a.accounts.entries = [] then (a, none, .error errNotConfigured)
  else if a.accounts.lookup username ≠ some password then (a, none, .error errInvalidAccount)
  else
    let old := a.byUser.lookup username
    let a := match old with
      | some oldToken =>
        { a with sessions := a.sessions.erase oldToken, byUser := a.byUser.erase username }
      | none => a
    ({ a with
        sessions := a.sessions.insert token username
        byUser := a.byUser.insert username token }, old, .ok token)

def validateToken (a : Auth) (token : Token) : Except String String :=
  if a.accounts.entries = [] then .error errNotConfigured
  else if token = "" then .error errInvalidSession
  else match a.sessions.lookup token with
    | none => .error errInvalidSession
    | some username => .ok username

def logout (a : Auth) (token : Token) : Auth × Option String :=
  if a.accounts.entries = [] then (a, some errNotConfigured)
  else match a.sessions.lookup token with
    | none => (a, some errInvalidSession)
    | some username =>
      ({ a with sessions := a.sessions.erase token, byUser := a.byUser.erase username }, none)

end Auth

/-- A connection of either kind, with the token it was opened with. -/
structure AdminConn where
  id : ℕ
  token : Token
  /-- `conn.Close` was called, `close` has not run yet. -/
  closed : Bool := false
  deriving DecidableEq

structure Admin where
  auth : Auth := {}
  /-- `adminDashboardHub.clients`. -/
  clients : List AdminConn := []
  /-- `observeSessionManager.conns`. -/
  conns : List AdminConn := []

inductive Request
  | login (username password : String) (token : Token)
  /-- The `X-Admin-Token` header. -/
  | logout (header : String)
  /-- The token is taken from the query or, when that is blank, from the header. -/
  | openDashboard (id : ℕ) (query header : String)
  | closeDashboard (id : ℕ)
  | openObserve (id : ℕ) (query header : String)
  | closeObserve (id : ℕ)

/-- `handleWS` of either kind, up to the upgrade. -/
def requestToken (query header : String) : Token :=
  let token := Text.trimSpace query
  if token = "" then Text.trimSpace header else token

namespace Admin

def leaveAllByToken (s : Admin) (token : Token) : Admin :=
  { s with conns := s.conns.filter fun oc => oc.token ≠ token }

def kickByToken (s : Admin) (token : Token) : Admin :=
  let s := s.leaveAllByToken token
  { s with clients := s.clients.map fun c => if c.token = token then { c with closed := true } else c }

/-- Kicked connections fail their next read and unregister. -/
def settle (s : Admin) : Admin := { s with clients := s.clients.filter fun c => !c.closed }

def handleLogin (s : Admin) (username password : String) (token : Token) : Admin :=
  let (auth, kicked, _) := s.auth.login (Text.trimSpace username) password token
  match kicked with
  | some old => { s with auth }.kickByToken old
  | none => { s with auth }

def handleLogout (s : Admin) (header : String) : Admin :=
  let token := Text.trimSpace header
  match s.auth.validateToken token with
  | .error _ => s
  | .ok _ =>
    let s := s.leaveAllByToken token
    { s with auth := (s.auth.logout token).1 }

def handleWS (s : Admin) (id : ℕ) (query header : String) : Admin :=
  let token := requestToken query header
  match s.auth.validateToken token with
  | .error _ => s
  | .ok _ => { s with clients := ⟨id, token, false⟩ :: s.clients }

def handleObserveWS (s : Admin) (id : ℕ) (query header : String) : Admin :=
  let token := requestToken query header
  match s.auth.validateToken token with
  | .error _ => s
  | .ok _ => { s with conns := ⟨id, token, false⟩ :: s.conns }

def handle (s : Admin) : Request → Admin
  | .login username password token => s.handleLogin username password token
  | .logout header => s.handleLogout header
  | .openDashboard id query header => s.handleWS id query header
  | .closeDashboard id => { s with clients := s.clients.filter fun c => c.id ≠ id }
  | .openObserve id query header => s.handleObserveWS id query header
  | .closeObserve id => { s with conns := s.conns.filter fun oc => oc.id ≠ id }

def step (s : Admin) (r : Request) : Admin := (s.handle r).settle

end Admin

/-- The admin server with its configured accounts. -/
def adminServer (accounts : GoMap String String) : Machine Admin Request where
  init := { auth := { accounts } }
  step := Admin.step

end Meetkit
