import Meetkit.Lib.Gauge
import Meetkit.Lib.Machine

/-! The process CPU sample of the admin dashboard. Every payload built for it, over HTTP,
over the WebSocket or for a broadcast, calls `Sample`, so any number of calls run side by
side. A step is one of the three of `sampleProcessCPU`: the counter is read, the timestamp
taken, and both compared with `prevProc` under `procCPUMu`. The counter of the kernel and
the clock move in between, and never back. -/

namespace Meetkit

/-- `readAt` and `stampedAt` are no fields of the source: the place of the counter reading
and of the timestamp among all that were ever made. -/
structure ProcCPUSample where
  ticks : UInt64
  takenAt : ℕ
  readAt : ℕ
  stampedAt : ℕ
  deriving DecidableEq

inductive SampleCall
  | outside
  /-- It has the ticks, not the timestamp. -/
  | ticksRead (ticks : UInt64) (readAt : ℕ)
  /-- It waits for `procCPUMu`. -/
  | sampled (cur : ProcCPUSample)
  deriving DecidableEq

/-- A subtraction that was made. -/
structure TickDelta where
  cur : ProcCPUSample
  prev : ProcCPUSample
  deriving DecidableEq

/-- `cur.ticks - prevProc.ticks`, before it becomes a float. -/
def TickDelta.value (d : TickDelta) : UInt64 := d.cur.ticks - d.prev.ticks

structure HostStats where
  /-- `utime` and `stime` of the process, added. -/
  kernelTicks : Gauge UInt64
  clock : Gauge ℕ
  /-- `none` as long as `prevProc.at.IsZero()`. -/
  prevProc : Option ProcCPUSample := none
  call : ℕ → SampleCall := fun _ => .outside
  deltas : List TickDelta := []

inductive SampleLabel
  | run (ticks : UInt64)
  | pass (now : ℕ)
  /-- `readProcessCPUTicks`, by call `c`; `ok` is its second result. -/
  | readTicks (c : ℕ) (ok : Bool)
  | stamp (c : ℕ)
  /-- The critical section of `procCPUMu`. -/
  | compare (c : ℕ)

namespace HostStats

def setCall (s : HostStats) (c : ℕ) (p : SampleCall) : HostStats :=
  { s with call := Function.update s.call c p }

def readTicks (s : HostStats) (c : ℕ) (ok : Bool) : HostStats :=
  match s.call c with
  | .outside =>
    if ok then
      { s.setCall c (.ticksRead s.kernelTicks.now s.kernelTicks.readings.length) with
        kernelTicks := s.kernelTicks.read }
    else s
  | _ => s

def stamp (s : HostStats) (c : ℕ) : HostStats :=
  match s.call c with
  | .ticksRead ticks readAt =>
    { s.setCall c (.sampled
        { ticks, takenAt := s.clock.now, readAt, stampedAt := s.clock.readings.length }) with
      clock := s.clock.read }
  | _ => s

def compare (s : HostStats) (c : ℕ) : HostStats :=
  match s.call c with
  | .sampled cur =>
    match s.prevProc with
    | none => { s.setCall c .outside with prevProc := some cur }
    | some prev =>
      -- elapsed <= 0
      if cur.takenAt ≤ prev.takenAt then s.setCall c .outside
      else { s.setCall c .outside with prevProc := some cur, deltas := s.deltas ++ [{ cur, prev }] }
  | _ => s

def step (s : HostStats) : SampleLabel → HostStats
  | .run ticks => { s with kernelTicks := s.kernelTicks.advance ticks }
  | .pass now => { s with clock := s.clock.advance now }
  | .readTicks c ok => s.readTicks c ok
  | .stamp c => s.stamp c
  | .compare c => s.compare c

end HostStats

def hostStats : Machine HostStats SampleLabel where
  init := { kernelTicks := { now := 0 }, clock := { now := 0 } }
  step := HostStats.step

end Meetkit
