import Meetkit.Lib.GoMap
import Meetkit.Lib.Text

/-! The admin accounts as the configuration lists them: `user1:pass1;user2:pass2`. -/

namespace Meetkit

open Text

/-- One turn of the loop of `ParseAccounts`. -/
def addAccount (accounts : GoMap String String) (part : List Char) : GoMap String String :=
  let part := trimSpaceList part
  if part = [] then accounts
  else
    match index [':'] part with
    | none | some 0 => accounts
    | some (idx + 1) =>
      let user := trimSpaceList (part.take (idx + 1))
      if user = [] then accounts
      else accounts.insert (String.ofList user) (String.ofList (part.drop (idx + 2)))

def parseAccounts (raw : String) : GoMap String String :=
  let raw := trimSpaceList raw.toList
  if raw = [] then ∅ else (raw.splitOn ';').foldl addAccount ∅

end Meetkit
