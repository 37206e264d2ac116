import Meetkit.Lib.Fields
import Meetkit.Lib.Url

/-! What hoststats reads under `/proc`: each function takes the file's text, `none` when the
file cannot be opened. -/

namespace Meetkit

open Fields

/-- `utime + stime`; `none` stands for the second result `false`. -/
def readProcessCPUTicks (file : Option (List Char)) : Option UInt64 :=
  match file with
  | none => none
  | some s =>
    if ')' ∉ s then none
    else
      let rest := Url.afterLast ')' s
      if rest.length ≤ 1 then none
      else
        let fs := fields (rest.drop 1)
        if fs.length < 13 then none
        else
          match parseUint (fs.getD 11 []), parseUint (fs.getD 12 []) with
          | (utime, true), (stime, true) => some (utime + stime)
          | _, _ => none

/-- `cpuSample` without its time. -/
structure CPUTimes where
  total : UInt64
  idle : UInt64
  deriving DecidableEq, Repr

def parseTimes : List (List Char) → Option (List UInt64)
  | [] => some []
  | f :: fs =>
    match parseUint f with
    | (n, true) => (parseTimes fs).map (n :: ·)
    | (_, false) => none

def readHostCPU (file : Option (List Char)) : Option CPUTimes :=
  match file.bind fun s => (scanLines s).head? with
  | none => none
  | some text =>
    let fs := fields text
    if fs.length < 5 ∨ fs.head? ≠ some "cpu".toList then none
    else
      (parseTimes fs.tail).map fun vals =>
        ⟨vals.foldl (· + ·) 0, if 3 < vals.length then vals.getD 3 0 else 0⟩

def parseMeminfoKB (text : List Char) : UInt64 :=
  let fs := fields text
  if fs.length < 2 then 0 else (parseUint (fs.getD 1 [])).1

/-- One turn of the loop of `readMemInfo`. -/
def scanMem (mem : UInt64 × UInt64) (text : List Char) : UInt64 × UInt64 :=
  if "MemTotal:".toList.isPrefixOf text then (parseMeminfoKB text, mem.2)
  else if "MemAvailable:".toList.isPrefixOf text then (mem.1, parseMeminfoKB text)
  else mem

/-- Total and available memory in bytes. -/
def readMemInfo (file : Option (List Char)) : UInt64 × UInt64 :=
  match file with
  | none => (0, 0)
  | some s =>
    let mem := (scanLines s).foldl scanMem (0, 0)
    (mem.1 * 1024, mem.2 * 1024)

def readProcessRSS (file : Option (List Char)) : UInt64 :=
  match file with
  | none => 0
  | some s =>
    match (scanLines s).find? fun text => "VmRSS:".toList.isPrefixOf text with
    | none => 0
    | some text =>
      let fs := fields text
      if fs.length < 2 then 0 else (parseUint (fs.getD 1 [])).1 * 1024

/-- `MemUsedBytes` of `Sample`. -/
def memUsed (total avail : UInt64) : UInt64 := if avail ≤ total then total - avail else total

end Meetkit
