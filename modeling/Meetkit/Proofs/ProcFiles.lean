import Meetkit.Model.ProcFiles

/-! The kernel's files are read as they are meant. The name of a process stands between
parentheses and may hold any characters, parentheses and spaces among them, so the
fields are counted from the last closing one. -/

namespace Meetkit

open Fields Text

/-! ### What the kernel writes -/

/-- The blanks between a key and its number. -/
structure Gap where
  text : List Char
  ne : text ≠ []
  blank : ∀ c ∈ text, c = ' ' ∨ c = '\t'
  short : text.length ≤ 64

/-- A line of a status file: a key, blanks, a number and its unit. -/
def keyLine (key : List Char) (gap : Gap) (n : UInt64) : List Char :=
  key ++ (gap.text ++ (decimal n ++ " kB".toList))

/-- A line that no reader looks for: it begins with none of `keys`, and the scanner takes it,
which gives up at one of 64 KiB. -/
def OtherLine (keys : List (List Char)) (l : List Char) : Prop :=
  IsLine l ∧ ∀ key ∈ keys, ¬key <+: l

instance (keys : List (List Char)) (l : List Char) : Decidable (OtherLine keys l) :=
  inferInstanceAs (Decidable (_ ∧ _))

def memTotalKey : List Char := "MemTotal:".toList

def memAvailableKey : List Char := "MemAvailable:".toList

def vmRSSKey : List Char := "VmRSS:".toList

/-- The figures of the kernel, and whatever else stands in its files. -/
structure Kernel where
  pid : UInt64
  comm : List Char
  /-- From the state to `cmajflt`. -/
  before : List (List Char)
  utime : UInt64
  stime : UInt64
  after : List (List Char)
  before_length : before.length = 11
  before_words : ∀ w ∈ before, IsWord w ∧ ')' ∉ w
  after_words : ∀ w ∈ after, IsWord w ∧ ')' ∉ w
  /-- User, nice, system and idle time, and what a later kernel adds. -/
  user : UInt64
  nice : UInt64
  system : UInt64
  idle : UInt64
  more : List UInt64
  more_length : more.length ≤ 64
  /-- What stands in `/proc/stat` below the first line. -/
  cpus : List Char
  totalGap : Gap
  memTotal : UInt64
  memFree : List (List Char)
  availableGap : Gap
  memAvailable : UInt64
  memMore : List (List Char)
  memFree_lines : ∀ l ∈ memFree, OtherLine [memTotalKey, memAvailableKey] l
  memMore_lines : ∀ l ∈ memMore, OtherLine [memTotalKey, memAvailableKey] l
  status : List (List Char)
  rssGap : Gap
  vmRSS : UInt64
  status_lines : ∀ l ∈ status, OtherLine [vmRSSKey] l
  /-- What stands in `/proc/self/status` below. -/
  statusMore : List Char

namespace Kernel

variable (k : Kernel)

/-- The fields of `/proc/self/stat` after the name. -/
def statWords : List (List Char) :=
  k.before ++ decimal k.utime :: decimal k.stime :: k.after

/-- `/proc/self/stat`. -/
def selfStat : List Char :=
  decimal k.pid ++ (' ' :: '(' :: k.comm) ++
    ')' :: ' ' :: ([' '].intercalate k.statWords ++ ['\n'])

def times : List UInt64 := k.user :: k.nice :: k.system :: k.idle :: k.more

def cpuLine : List Char := "cpu".toList ++ (' ' :: ' ' :: [' '].intercalate (k.times.map decimal))

/-- `/proc/stat`. -/
def stat : List Char := k.cpuLine ++ '\n' :: k.cpus

def memLines : List (List Char) :=
  keyLine memTotalKey k.totalGap k.memTotal :: k.memFree ++
    keyLine memAvailableKey k.availableGap k.memAvailable :: k.memMore

/-- `/proc/meminfo`. -/
def meminfo : List Char := k.memLines.flatMap fun l => l ++ ['\n']

/-- `/proc/self/status`. -/
def selfStatus : List Char :=
  (k.status.flatMap fun l => l ++ ['\n']) ++
    (keyLine vmRSSKey k.rssGap k.vmRSS ++ '\n' :: k.statusMore)

end Kernel

/-! ### How it is read -/

namespace Kernel

variable (k : Kernel)

theorem notMem_decimal {c : Char} (hc : c.isDigit = false) (n : UInt64) : c ∉ decimal n := by
  intro h
  rw [isDigit_of_mem_decimal h] at hc
  exact absurd hc (by decide)

theorem statWords_words : ∀ w ∈ k.statWords, IsWord w ∧ ')' ∉ w := by
  intro w hw
  simp only [statWords, List.mem_append, List.mem_cons] at hw
  rcases hw with hw | rfl | rfl | hw
  · exact k.before_words w hw
  · exact ⟨isWord_decimal _, notMem_decimal (by decide) _⟩
  · exact ⟨isWord_decimal _, notMem_decimal (by decide) _⟩
  · exact k.after_words w hw

theorem statWords_times :
    k.statWords.getD 11 [] = decimal k.utime ∧ k.statWords.getD 12 [] = decimal k.stime := by
  have hutime : k.statWords[11]? = some (decimal k.utime) := by
    rw [statWords, List.getElem?_append_right (by rw [k.before_length]), k.before_length]
    rfl
  have hstime : k.statWords[12]? = some (decimal k.stime) := by
    rw [statWords, List.getElem?_append_right (by rw [k.before_length]; decide), k.before_length]
    rfl
  rw [List.getD_eq_getElem?_getD, List.getD_eq_getElem?_getD, hutime, hstime]
  exact ⟨rfl, rfl⟩

/-- Ticks are counted from the last closing parenthesis, whatever the name. -/
theorem readProcessCPUTicks_selfStat :
    readProcessCPUTicks (some k.selfStat) = some (k.utime + k.stime) := by
  have hwords := k.statWords_words
  have hparen : ')' ∉ ' ' :: ([' '].intercalate k.statWords ++ ['\n']) := by
    have hrow := notMem_intercalate (by decide) fun w hw => (hwords w hw).2
    simp [hrow]
  have hafter : Url.afterLast ')' k.selfStat = ' ' :: ([' '].intercalate k.statWords ++ ['\n']) :=
    Url.afterLast_split hparen
  have hnl : Blank ['\n'] := by
    intro c hc
    rw [List.mem_singleton.1 hc]
    decide
  have hfields : fields ([' '].intercalate k.statWords ++ ['\n']) = k.statWords := by
    have hblank := fields_blank_append hnl []
    rw [List.append_nil] at hblank
    rw [fields_intercalate (fun w hw => (hwords w hw).1) (fun c hc => hnl c (by simpa using hc.symm)), hblank]
    exact List.append_nil _
  have hmem : ')' ∈ k.selfStat := by simp [selfStat]
  have hlen : ¬(' ' :: ([' '].intercalate k.statWords ++ ['\n'])).length ≤ 1 := by simp
  have hcount : ¬k.statWords.length < 13 := by
    rw [statWords, List.length_append, List.length_cons, List.length_cons, k.before_length]
    omega
  obtain ⟨hutime, hstime⟩ := k.statWords_times
  unfold readProcessCPUTicks
  simp only [if_neg (not_not.2 hmem), hafter, if_neg hlen, List.drop_one, List.tail_cons, hfields,
    if_neg hcount, hutime, hstime, parseUint_decimal]

/-- A name with parentheses in it does not move the count. -/
example : readProcessCPUTicks
    (some "7 (a) S 9 (b) S 1 2 3 4 5 6 7 8 9 10 40 2 0\n".toList) = some 42 := by decide

/-! ### The files of lines -/

theorem parseTimes_decimal (ns : List UInt64) : parseTimes (ns.map decimal) = some ns := by
  induction ns with
  | nil => rfl
  | cons n ns ih =>
    rw [List.map_cons, parseTimes, parseUint_decimal, ih]
    rfl

theorem isLine_cpuLine : IsLine k.cpuLine := by
  have hwords : ∀ w ∈ k.times.map decimal, ('\n' ∉ w ∧ '\r' ∉ w) ∧ w.length ≤ 20 := by
    intro w hw
    obtain ⟨n, -, rfl⟩ := List.mem_map.1 hw
    exact ⟨⟨notMem_decimal (by decide) n, notMem_decimal (by decide) n⟩, length_decimal_le n⟩
  have hend := notMem_intercalate (c := '\n') (by decide) fun w hw => (hwords w hw).1.1
  have hcr := notMem_intercalate (c := '\r') (by decide) fun w hw => (hwords w hw).1.2
  have hlen := length_intercalate_le fun w hw => (hwords w hw).2
  have hcpu : "cpu".toList.length = 3 := by decide
  have htimes : (k.times.map decimal).length ≤ 68 := by
    have hmore := k.more_length
    rw [List.length_map]
    simp only [times, List.length_cons]
    omega
  refine ⟨?_, ?_, ?_⟩
  · simp [cpuLine, hend]
  · simp [cpuLine, hcr]
  · rw [cpuLine, List.length_append, List.length_cons, List.length_cons, hcpu]
    unfold maxScanTokenSize
    omega

/-- All times of the first line are added, the fourth is the idle one. -/
theorem readHostCPU_stat : readHostCPU (some k.stat) = some ⟨k.times.foldl (· + ·) 0, k.idle⟩ := by
  have hhead : (scanLines k.stat).head? = some k.cpuLine := by
    rw [stat, scanLines_line k.isLine_cpuLine]
    rfl
  have hfields : fields k.cpuLine = "cpu".toList :: k.times.map decimal := by
    have hword : IsWord "cpu".toList := by decide
    have hblank : Blank [' '] := by
      intro c hc
      rw [List.mem_singleton.1 hc]
      decide
    have hwords : ∀ w ∈ k.times.map decimal, IsWord w := by
      intro w hw
      obtain ⟨n, -, rfl⟩ := List.mem_map.1 hw
      exact isWord_decimal n
    have hrow := fields_intercalate (s := []) hwords (by simp)
    rw [List.append_nil] at hrow
    have hskip := fields_blank_append hblank ([' '].intercalate (k.times.map decimal))
    rw [List.singleton_append] at hskip
    rw [cpuLine, fields_word_space hword (by decide), hskip, hrow]
    exact congrArg _ (List.append_nil _)
  unfold readHostCPU
  simp only [Option.bind_some, hhead, hfields, List.tail_cons, parseTimes_decimal]
  rw [if_neg (by simp [times])]
  rfl

/-- A line with a key is taken apart into the key, the number and the unit. -/
theorem fields_keyLine {key : List Char} (hkey : IsWord key) (gap : Gap) (n : UInt64) :
    fields (keyLine key gap n) = [key, decimal n, "kB".toList] := by
  have hgap : Blank gap.text := by
    intro c hc
    rcases gap.blank c hc with rfl | rfl
    · decide
    · decide
  have hunit : " kB".toList = ' ' :: "kB".toList := by decide
  obtain ⟨c, pad, hpad⟩ := List.exists_cons_of_ne_nil gap.ne
  have hc : isSpace c = true := hgap c (hpad ▸ List.mem_cons_self)
  have hrest : Blank pad := fun d hd => hgap d (hpad ▸ List.mem_cons_of_mem c hd)
  rw [keyLine, hpad, List.cons_append, fields_word_space hkey hc, fields_blank_append hrest, hunit,
    fields_word_space (isWord_decimal n) (by decide), fields_word (by decide)]

theorem isLine_keyLine {key : List Char} (hkey : IsLine key) (hshort : key.length ≤ 64) (gap : Gap)
    (n : UInt64) : IsLine (keyLine key gap n) := by
  have hend : '\n' ∉ decimal n := notMem_decimal (by decide) n
  have hcr : '\r' ∉ decimal n := notMem_decimal (by decide) n
  have hgap : '\n' ∉ gap.text ∧ '\r' ∉ gap.text :=
    ⟨fun h => by simpa using gap.blank _ h, fun h => by simpa using gap.blank _ h⟩
  have hunit : '\n' ∉ " kB".toList ∧ '\r' ∉ " kB".toList ∧ " kB".toList.length = 3 := by decide
  have hlen : (keyLine key gap n).length < maxScanTokenSize := by
    have hn := length_decimal_le n
    have hgapLen := gap.short
    unfold keyLine maxScanTokenSize
    simp only [List.length_append, hunit.2.2]
    omega
  refine ⟨?_, ?_, hlen⟩
  · simp only [keyLine, List.mem_append, not_or]
    exact ⟨hkey.1, hgap.1, hend, hunit.1⟩
  · simp only [keyLine, List.mem_append, not_or]
    exact ⟨hkey.2.1, hgap.2, hcr, hunit.2.1⟩

theorem parseMeminfoKB_keyLine {key : List Char} (hkey : IsWord key) (gap : Gap) (n : UInt64) :
    parseMeminfoKB (keyLine key gap n) = n := by
  unfold parseMeminfoKB
  simp [fields_keyLine hkey, parseUint_decimal]

/-- Lines without the keys are passed over. -/
theorem foldl_scanMem_other {ls : List (List Char)}
    (h : ∀ l ∈ ls, OtherLine [memTotalKey, memAvailableKey] l) (mem : UInt64 × UInt64) :
    ls.foldl scanMem mem = mem := by
  induction ls with
  | nil => rfl
  | cons l ls ih =>
    obtain ⟨-, hkeys⟩ := h l List.mem_cons_self
    have htotal : ¬"MemTotal:".toList.isPrefixOf l = true := fun hp =>
      hkeys memTotalKey (by simp) (List.isPrefixOf_iff_prefix.1 hp)
    have havail : ¬"MemAvailable:".toList.isPrefixOf l = true := fun hp =>
      hkeys memAvailableKey (by simp) (List.isPrefixOf_iff_prefix.1 hp)
    rw [List.foldl_cons, scanMem, if_neg htotal, if_neg havail]
    exact ih fun m hm => h m (List.mem_cons_of_mem l hm)

theorem readMemInfo_meminfo :
    readMemInfo (some k.meminfo) = (k.memTotal * 1024, k.memAvailable * 1024) := by
  have htotal : IsWord memTotalKey := by decide
  have havail : IsWord memAvailableKey := by decide
  have hlines : scanLines k.meminfo = k.memLines := by
    have hall : ∀ l ∈ k.memLines, IsLine l := by
      intro l hl
      simp only [memLines, List.cons_append, List.mem_cons, List.mem_append] at hl
      rcases hl with rfl | hl | rfl | hl
      · exact isLine_keyLine ⟨by decide, by decide, by decide⟩ (by decide) _ _
      · exact (k.memFree_lines l hl).1
      · exact isLine_keyLine ⟨by decide, by decide, by decide⟩ (by decide) _ _
      · exact (k.memMore_lines l hl).1
    have hread := scanLines_lines hall []
    rw [List.append_nil] at hread
    exact hread.trans (List.append_nil _)
  have hscanTotal : ∀ mem, scanMem mem (keyLine memTotalKey k.totalGap k.memTotal) =
      (k.memTotal, mem.2) := by
    intro mem
    have hp : "MemTotal:".toList.isPrefixOf (keyLine memTotalKey k.totalGap k.memTotal) = true :=
      List.isPrefixOf_iff_prefix.2 (List.prefix_append _ _)
    rw [scanMem, if_pos hp, parseMeminfoKB_keyLine htotal]
  have hscanAvail : ∀ mem, scanMem mem (keyLine memAvailableKey k.availableGap k.memAvailable) =
      (mem.1, k.memAvailable) := by
    intro mem
    have hp : "MemAvailable:".toList.isPrefixOf (keyLine memAvailableKey k.availableGap k.memAvailable) =
        true :=
      List.isPrefixOf_iff_prefix.2 (List.prefix_append _ _)
    have hno : ¬"MemTotal:".toList.isPrefixOf (keyLine memAvailableKey k.availableGap k.memAvailable) =
        true := by
      intro hp
      have hkeys : memTotalKey <+: memAvailableKey :=
        List.prefix_of_prefix_length_le (List.isPrefixOf_iff_prefix.1 hp) (List.prefix_append _ _)
          (by decide)
      exact absurd hkeys (by decide)
    rw [scanMem, if_neg hno, if_pos hp, parseMeminfoKB_keyLine havail]
  unfold readMemInfo
  simp only [hlines, memLines, List.cons_append, List.foldl_cons, List.foldl_append, hscanTotal, hscanAvail,
    foldl_scanMem_other k.memFree_lines, foldl_scanMem_other k.memMore_lines]

theorem readProcessRSS_selfStatus : readProcessRSS (some k.selfStatus) = k.vmRSS * 1024 := by
  have hkey : IsWord vmRSSKey := by decide
  have hlines : scanLines k.selfStatus =
      k.status ++ keyLine vmRSSKey k.rssGap k.vmRSS :: scanLines k.statusMore := by
    have hline : IsLine (keyLine vmRSSKey k.rssGap k.vmRSS) :=
      isLine_keyLine ⟨by decide, by decide, by decide⟩ (by decide) _ _
    rw [selfStatus, scanLines_lines fun l hl => (k.status_lines l hl).1, scanLines_line hline]
  have hfind : (scanLines k.selfStatus).find? (fun text => "VmRSS:".toList.isPrefixOf text) =
      some (keyLine vmRSSKey k.rssGap k.vmRSS) := by
    have hnone : k.status.find? (fun text => "VmRSS:".toList.isPrefixOf text) = none := by
      refine List.find?_eq_none.2 fun l hl hp => ?_
      exact (k.status_lines l hl).2 vmRSSKey (by simp) (List.isPrefixOf_iff_prefix.1 hp)
    have hp : "VmRSS:".toList.isPrefixOf (keyLine vmRSSKey k.rssGap k.vmRSS) = true :=
      List.isPrefixOf_iff_prefix.2 (List.prefix_append _ _)
    rw [hlines, List.find?_append, hnone, Option.none_or, List.find?_cons_of_pos hp]
  unfold readProcessRSS
  simp only [hfind, fields_keyLine hkey]
  simp [parseUint_decimal]

end Kernel

/-- What `Sample` takes from the kernel's files. -/
structure HostReadings where
  ticks : Option UInt64
  cpu : Option CPUTimes
  memTotal : UInt64
  memUsed : UInt64
  rss : UInt64
  deriving DecidableEq

def readHost (selfStat stat meminfo selfStatus : Option (List Char)) : HostReadings :=
  let (total, avail) := readMemInfo meminfo
  ⟨readProcessCPUTicks selfStat, readHostCPU stat, total, memUsed total avail,
    readProcessRSS selfStatus⟩

/-- Whatever the process is called and whatever other lines the scanner takes stand in the
files, the dashboard's figures are those of the kernel. -/
theorem host_readings_are_the_kernels (k : Kernel) :
    readHost (some k.selfStat) (some k.stat) (some k.meminfo) (some k.selfStatus) =
      { ticks := some (k.utime + k.stime)
        cpu := some ⟨k.times.foldl (· + ·) 0, k.idle⟩
        memTotal := k.memTotal * 1024
        memUsed := memUsed (k.memTotal * 1024) (k.memAvailable * 1024)
        rss := k.vmRSS * 1024 } := by
  unfold readHost
  rw [k.readMemInfo_meminfo, k.readProcessCPUTicks_selfStat, k.readHostCPU_stat,
    k.readProcessRSS_selfStatus]

/-- A small machine; its process has a name with the fields of another one in it. -/
def smallKernel : Kernel where
  pid := 7
  comm := "zlm (1) S 3".toList
  before := ["S".toList, "1".toList, "7".toList, "7".toList, "0".toList, "-1".toList,
    "4194560".toList, "2".toList, "0".toList, "0".toList, "0".toList]
  utime := 40
  stime := 2
  after := ["20".toList, "0".toList]
  before_length := rfl
  before_words := by decide
  after_words := by decide
  user := 100
  nice := 0
  system := 50
  idle := 850
  more := [10, 0, 5]
  more_length := by decide
  cpus := "cpu0 100 0 50 850 10 0 5\nctxt 12\n".toList
  totalGap := ⟨"  ".toList, by decide, by simp, by decide⟩
  memTotal := 4000
  memFree := ["MemFree: 100 kB".toList]
  availableGap := ⟨" ".toList, by decide, by simp, by decide⟩
  memAvailable := 3000
  memMore := ["Buffers: 20 kB".toList]
  memFree_lines := by decide
  memMore_lines := by decide
  status := ["Name: zlm".toList, "VmHWM: 90 kB".toList]
  rssGap := ⟨"\t ".toList, by decide, by simp, by decide⟩
  vmRSS := 80
  status_lines := by decide
  statusMore := "Threads: 1\n".toList

theorem small_kernel_read :
    readHost (some smallKernel.selfStat) (some smallKernel.stat) (some smallKernel.meminfo)
      (some smallKernel.selfStatus) =
      { ticks := some 42, cpu := some ⟨1015, 850⟩, memTotal := 4096000, memUsed := 1024000,
        rss := 81920 } :=
  host_readings_are_the_kernels smallKernel

end Meetkit
