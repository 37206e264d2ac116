import Meetkit.Lib.Machine
import Meetkit.Lib.Slice

/-! The audit log of the admin API. What it keeps and what it hands out are slices, and
`append` writes into arrays that slices share. The `log.Info` of `Record` goes to the
server's own log and is left out. -/

namespace Meetkit

structure AuditEntry where
  time : ℤ
  username : String
  action : String
  room : String
  detail : String
  deriving DecidableEq, Repr, Inhabited

structure AuditLog where
  arrays : Arrays AuditEntry
  entries : Slice
  max : ℤ
  /-- Whether there is a change hook, and how often it was called. -/
  onChange : Bool := false
  changes : ℕ := 0

inductive AuditOp
  /-- `Record` at a time; `spare` is how much room the runtime gives a new array. -/
  | record (time : ℤ) (username action room detail : String) (spare : ℕ)
  | recent (limit : ℤ)
  | clear
  | setChangeHook (fn : Bool)

namespace AuditLog

def newAuditLog (max : ℤ) : AuditLog where
  -- a nil slice has an array without room
  arrays := [[]]
  entries := ⟨0, 0, 0⟩
  max := if max ≤ 0 then 200 else max

def setChangeHook (l : AuditLog) (fn : Bool) : AuditLog := { l with onChange := fn }

def changed (l : AuditLog) : AuditLog :=
  if l.onChange then { l with changes := l.changes + 1 } else l

def record (l : AuditLog) (entry : AuditEntry) (spare : ℕ) : AuditLog :=
  let (arrays, entries) := Slice.append l.arrays l.entries entry spare
  let entries := if l.max < entries.len then entries.dropFront (entries.len - l.max).toNat else entries
  { l with arrays, entries }.changed

/-- `Recent` and the slice it returns. -/
def recent (l : AuditLog) (limit : ℤ) : AuditLog × Slice :=
  let limit := if limit ≤ 0 then 50 else limit
  let out :=
    if l.entries.len = 0 then []
    else
      let start := if limit < l.entries.len then (l.entries.len - limit).toNat else 0
      (l.entries.dropFront start).read l.arrays
  let (arrays, out) := Slice.ofList l.arrays out
  ({ l with arrays }, out)

def clear (l : AuditLog) : AuditLog :=
  let (arrays, entries) := Slice.ofList l.arrays []
  { l with arrays, entries }.changed

def step (l : AuditLog) : AuditOp → AuditLog
  | .record time username action room detail spare =>
    l.record ⟨time, username, action, room, detail⟩ spare
  | .recent limit => (l.recent limit).1
  | .clear => l.clear
  | .setChangeHook fn => l.setChangeHook fn

end AuditLog

def auditLog (max : ℤ) : Machine AuditLog AuditOp where
  init := AuditLog.newAuditLog max
  step := AuditLog.step

end Meetkit
