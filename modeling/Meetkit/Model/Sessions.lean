import Meetkit.Model.Admin

/-! Calls of `Auth` in any order. `uuid n` is what the `n`-th `uuid.NewString` returns. -/

namespace Meetkit

inductive AuthCall
  | login (username password : String)
  | logout (token : Token)
  | validateToken (token : Token)

/-- What a call returned. -/
inductive AuthReply
  | loggedIn (username : String) (token : Token)
  | loginFailed (username err : String)
  | loggedOut (token : Token)
  | logoutFailed (token : Token) (err : String)
  | validated (token : Token) (result : Except String String)

def AuthReply.failed : AuthReply → Bool
  | .loginFailed .. | .logoutFailed .. | .validated _ (.error _) => true
  | _ => false

structure Sessions where
  auth : Auth := {}
  /-- How many tokens were drawn. -/
  drawn : ℕ := 0
  /-- The calls of the kick handler, with their tokens. -/
  kicks : List Token := []
  log : List AuthReply := []

namespace Sessions

def record (s : Sessions) (r : AuthReply) : Sessions := { s with log := s.log ++ [r] }

def login (uuid : ℕ → Token) (s : Sessions) (username password : String) : Sessions :=
  match s.auth.login username password (uuid s.drawn) with
  | (auth, kicked, .ok token) =>
    { s with auth, drawn := s.drawn + 1, kicks := s.kicks ++ kicked.toList }.record
      (.loggedIn username token)
  | (auth, kicked, .error e) =>
    { s with auth, kicks := s.kicks ++ kicked.toList }.record (.loginFailed username e)

def logout (s : Sessions) (token : Token) : Sessions :=
  match s.auth.logout token with
  | (auth, none) => { s with auth }.record (.loggedOut token)
  | (auth, some e) => { s with auth }.record (.logoutFailed token e)

def step (uuid : ℕ → Token) (s : Sessions) : AuthCall → Sessions
  | .login username password => s.login uuid username password
  | .logout token => s.logout token
  | .validateToken token => s.record (.validated token (s.auth.validateToken token))

end Sessions

/-- `Auth` with its configured accounts. -/
def sessions (uuid : ℕ → Token) (accounts : GoMap String String) : Machine Sessions AuthCall where
  init := { auth := { accounts } }
  step := Sessions.step uuid

end Meetkit
