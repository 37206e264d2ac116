import Meetkit.Lib.Aging
import Meetkit.Model.HookCache

/-! What a poll of the hook cache finds: the last hook delivered under the key, as long
as that is at most 30 seconds ago, for what is pruned is older. The cache knows streams
and not recordings, so a record-stop is answered with its own file exactly when no poll
of it meets a recent hook of another recording. -/

namespace Meetkit

open Aging

namespace HookItems

variable {items : HookItems} {all : String → Option HookRecord} {now : ℕ}

theorem storeHookRecord_forgets (c : HookStore)
    (h : Forgets HookRecord.ts (60 * second) now items all) (hnow : now ≤ c.now) :
    Forgets HookRecord.ts (60 * second) c.now (items.storeHookRecord c)
      (Function.update all (hookKey c.app c.stream) (some ⟨c.callURL, c.ts⟩)) := by
  have hput := (h.later hnow).insert (hookKey c.app c.stream) ⟨c.callURL, c.ts⟩
  unfold storeHookRecord
  dsimp only
  split_ifs
  · exact hput.prune c.rank
  · exact hput

/-- A lookup after half a minute finds nothing, whether that is forgotten or not. -/
theorem lookupHookRecord_eq (h : Forgets HookRecord.ts (60 * second) now items all)
    (app : RoomID) (stream : StreamID) : items.lookupHookRecord app stream now =
      (((all (hookKey app stream)).filter fun r => now - r.ts ≤ 30 * second).map
        fun r => (r.fullURL, true)).getD ("", false) := by
  rw [← h.lookup_filter (by unfold second; omega)]
  unfold lookupHookRecord
  cases items.lookup (hookKey app stream) with
  | none => rfl
  | some r =>
    dsimp only
    rw [Option.filter_some]
    by_cases hold : 30 * second < now - r.ts
    · rw [if_pos hold, if_neg (by rw [decide_eq_true_eq]; omega)]
      rfl
    · rw [if_neg hold, if_pos (by rw [decide_eq_true_eq]; omega)]
      rfl

end HookItems

/-! ### The cache that forgets nothing -/

/-- The most recent of the stores under `key`. -/
def latestStore (calls : List HookStore) (key : String) : Option HookStore :=
  (calls.filter fun c => hookKey c.app c.stream = key).getLast?

/-- What a cache would answer that keeps every store. -/
def unboundedLookup (calls : List HookStore) (app : RoomID) (stream : StreamID) (now : ℕ) :
    String × Bool :=
  match latestStore calls (hookKey app stream) with
  | none => ("", false)
  | some c => if now - c.ts ≤ 30 * second then (c.callURL, true) else ("", false)

def clocks (calls : List HookStore) : List ℕ := calls.flatMap fun c => [c.ts, c.now]

theorem latestStore_snoc (calls : List HookStore) (c : HookStore) :
    (fun key => (latestStore (calls ++ [c]) key).map fun c => HookRecord.mk c.callURL c.ts) =
      Function.update (fun key => (latestStore calls key).map fun c => ⟨c.callURL, c.ts⟩)
        (hookKey c.app c.stream) (some ⟨c.callURL, c.ts⟩) := by
  funext key
  rw [Function.update_apply, latestStore, List.filter_append]
  by_cases hkey : key = hookKey c.app c.stream
  · simp [hkey]
  · simp [hkey, Ne.symm hkey, latestStore]

theorem hookCache_forgets (calls : List HookStore) : ∀ now, (clocks calls ++ [now]).Pairwise (· ≤ ·) →
    Forgets HookRecord.ts (60 * second) now (hookCache.run calls)
      fun key => (latestStore calls key).map fun c => ⟨c.callURL, c.ts⟩ := by
  induction calls using List.reverseRecOn with
  | nil => exact fun now _ => forgets_empty
  | append_singleton calls c ih =>
    intro now hclock
    have hsplit : clocks (calls ++ [c]) ++ [now] = (clocks calls ++ [c.ts]) ++ [c.now, now] := by
      simp [clocks]
    rw [hsplit, List.pairwise_append] at hclock
    obtain ⟨hbefore, hafter, hmono⟩ := hclock
    have hts : c.ts ≤ c.now := hmono c.ts (by simp) c.now (by simp)
    have hnow : c.now ≤ now := by simpa using hafter
    rw [Machine.run_snoc, latestStore_snoc]
    exact (HookItems.storeHookRecord_forgets c (ih c.ts hbefore) hts).later hnow

/-- Whatever is stored and pruned, in any order, a lookup answers as if nothing had been
pruned. -/
theorem hook_cache_unbounded (calls : List HookStore) (app : RoomID) (stream : StreamID) (now : ℕ)
    (hclock : (clocks calls ++ [now]).Pairwise (· ≤ ·)) :
    (hookCache.run calls).lookupHookRecord app stream now =
      unboundedLookup calls app stream now := by
  rw [HookItems.lookupHookRecord_eq (hookCache_forgets calls now hclock), unboundedLookup]
  cases latestStore calls (hookKey app stream) with
  | none => rfl
  | some c =>
    rw [Option.map_some, Option.filter_some]
    by_cases hold : now - c.ts ≤ 30 * second
    · rw [if_pos (by simpa using hold)]
      exact (if_pos hold).symm
    · rw [if_neg (by simpa using hold)]
      exact (if_neg hold).symm

/-- A store prunes 130 others away, one of which is then asked for. -/
theorem hook_cache_unbounded_pruned :
    let calls : List HookStore := ((List.range 130).map fun n =>
        ⟨"r", toString n, "old", n, n, fun _ => 0⟩) ++
      [⟨"r", "0", "new", 100 * second, 100 * second, fun _ => 0⟩]
    (hookCache.run calls).lookupHookRecord "r" "0" (101 * second) = ("new", true) ∧
      (hookCache.run calls).lookupHookRecord "r" "1" (101 * second) = ("", false) := by
  intro calls
  have hclock : (clocks calls ++ [101 * second]).Pairwise (· ≤ ·) :=
    List.isChain_iff_pairwise.1 (by decide +kernel)
  have hnew := hook_cache_unbounded calls "r" "0" (101 * second) hclock
  have hold := hook_cache_unbounded calls "r" "1" (101 * second) hclock
  exact ⟨hnew.trans (by decide +kernel), hold.trans (by decide +kernel)⟩

namespace Recorder

def last (s : Recorder) (key : String) : Option Delivery :=
  (s.hooks.filter fun d => d.key = key).getLast?

def recent (s : Recorder) (key : String) : Option Delivery :=
  (s.last key).filter fun d => s.now - d.ts ≤ 30 * second

/-- A poll meets no recent hook, or one of the recording that its record-stop ended. -/
def own (s : Recorder) : RecordLabel → Bool
  | .poll n =>
    match s.resolvers[n]? with
    | none => true
    | some w => s.now < w.due ||
        (s.recent (hookKey w.app w.stream)).all fun d => w.ended = some d.recording
  | _ => true

/-- The URLs in acknowledgements were stored by the hooks of the recordings that ended. -/
def Honest (s : Recorder) : Prop :=
  ∀ a ∈ s.acks, ∀ u, a.recordFileURL = some u →
    ∃ d ∈ s.hooks, a.ended = some d.recording ∧ d.url = u

/-- The cache holds the last hook of each key, unless that was pruned. -/
def Cached (s : Recorder) : Prop :=
  ∀ k, s.items.lookup k = (s.last k).map (fun d => ⟨d.url, d.ts⟩) ∨
    s.items.lookup k = none ∧ ∀ d, s.last k = some d → 60 * second < s.now - d.ts

section Steps

variable {s : Recorder} {file : ℕ → String}

theorem cached_iff : s.Cached ↔ Forgets HookRecord.ts (60 * second) s.now s.items
    fun k => (s.last k).map fun d => ⟨d.url, d.ts⟩ := by
  unfold Cached Forgets
  simp only [Option.map_eq_some_iff, forall_exists_index, and_imp, forall_apply_eq_imp_iff₂]

theorem Cached.lookup (hc : s.Cached) (app : RoomID) (stream : StreamID) :
    s.lookupHookRecord app stream = (s.recent (hookKey app stream)).map (·.url) := by
  have hrecent : (s.recent (hookKey app stream)).map (·.url) =
      (((s.last (hookKey app stream)).map fun d => HookRecord.mk d.url d.ts).filter
        fun r => s.now - r.ts ≤ 30 * second).map (·.fullURL) := by
    rw [recent, Option.filter_map, Option.map_map]
    rfl
  rw [lookupHookRecord, HookItems.lookupHookRecord_eq (cached_iff.1 hc), hrecent]
  cases ((s.last (hookKey app stream)).map fun d => HookRecord.mk d.url d.ts).filter
      fun r => s.now - r.ts ≤ 30 * second with
  | none => rfl
  | some r => rfl

theorem Cached.same {s' : Recorder} (hc : s.Cached) (hitems : s'.items = s.items)
    (hhooks : s'.hooks = s.hooks) (hnow : s.now ≤ s'.now) : s'.Cached := by
  have hlast : ∀ k, s'.last k = s.last k := fun k => by rw [last, last, hhooks]
  rw [cached_iff]
  simp only [hlast, hitems]
  exact (cached_iff.1 hc).later hnow

theorem last_snoc {s' : Recorder} {d : Delivery} (h : s'.hooks = s.hooks ++ [d]) :
    (fun k => (s'.last k).map fun d => HookRecord.mk d.url d.ts) =
      Function.update (fun k => (s.last k).map fun d => ⟨d.url, d.ts⟩) d.key
        (some ⟨d.url, d.ts⟩) := by
  funext k
  rw [Function.update_apply, last, h, List.filter_append]
  by_cases hk : k = d.key
  · simp [hk]
  · simp [hk, Ne.symm hk, last]

theorem Cached.receiveHook (hc : s.Cached) (n : ℕ) (rank : String → ℕ) :
    (s.receiveHook file n rank).Cached := by
  unfold Recorder.receiveHook
  split
  · exact hc
  · rename_i x hx
    split_ifs
    · exact hc
    · exact hc
    · exact hc
    · have hstore := HookItems.storeHookRecord_forgets
        ⟨x.app, x.stream, file n, s.now, s.now, rank⟩ (cached_iff.1 hc) (Nat.le_refl s.now)
      rw [cached_iff, last_snoc rfl]
      exact hstore

theorem poll_acks (hc : s.Cached) (n : ℕ) :
    (s.poll n).hooks = s.hooks ∧ (s.poll n).items = s.items ∧ (s.poll n).now = s.now ∧
      ((s.poll n).acks = s.acks ∧ (∀ w, s.resolvers[n]? = some w → ¬ s.now < w.due →
          s.recent (hookKey w.app w.stream) = none) ∨
        ∃ w, s.resolvers[n]? = some w ∧ ¬ s.now < w.due ∧
          (s.poll n).acks = s.acks ++ [⟨w.app, w.stream, w.ended,
            (s.recent (hookKey w.app w.stream)).map (·.url)⟩]) := by
  unfold Recorder.poll
  cases hw : s.resolvers[n]? with
  | none => exact ⟨rfl, rfl, rfl, Or.inl ⟨rfl, fun w h => (nomatch h)⟩⟩
  | some w =>
    dsimp only
    have hfound := hc.lookup w.app w.stream
    by_cases hdue : s.now < w.due
    · rw [if_pos hdue]
      exact ⟨rfl, rfl, rfl, Or.inl ⟨rfl, fun x hx h => absurd (Option.some.inj hx ▸ hdue) h⟩⟩
    · rw [if_neg hdue]
      cases hl : s.lookupHookRecord w.app w.stream with
      | some u =>
        rw [hl] at hfound
        exact ⟨rfl, rfl, rfl, Or.inr ⟨w, rfl, hdue, by rw [← hfound]⟩⟩
      | none =>
        rw [hl] at hfound
        dsimp only
        by_cases hlast : w.attempt < maxAttempts - 1
        · rw [if_pos hlast]
          refine ⟨rfl, rfl, rfl, Or.inl ⟨rfl, fun x hx _ => ?_⟩⟩
          rw [← Option.some.inj hx]
          exact Option.map_eq_none_iff.1 hfound.symm
        · rw [if_neg hlast]
          exact ⟨rfl, rfl, rfl, Or.inr ⟨w, rfl, hdue, by rw [← hfound]⟩⟩

theorem step_acks (file : ℕ → String) {l : RecordLabel} (hl : ∀ n, l ≠ .poll n) :
    (s.step file l).acks = s.acks ∧ s.hooks <+: (s.step file l).hooks := by
  cases l with
  | tick d => exact ⟨rfl, List.prefix_refl _⟩
  | start app stream =>
    simp only [Recorder.step]
    split_ifs <;> exact ⟨rfl, List.prefix_refl _⟩
  | stop app stream =>
    simp only [Recorder.step]
    cases s.running app stream <;> exact ⟨rfl, List.prefix_refl _⟩
  | cut app stream =>
    simp only [Recorder.step]
    cases s.running app stream <;> exact ⟨rfl, List.prefix_refl _⟩
  | hook n rank =>
    simp only [Recorder.step, Recorder.receiveHook]
    split
    · exact ⟨rfl, List.prefix_refl _⟩
    · split_ifs
      · exact ⟨rfl, List.prefix_refl _⟩
      · exact ⟨rfl, List.prefix_refl _⟩
      · exact ⟨rfl, List.prefix_refl _⟩
      · exact ⟨rfl, List.prefix_append _ _⟩
  | poll n => exact absurd rfl (hl n)

theorem Cached.grows (hc : s.Cached) (file : ℕ → String) (l : RecordLabel) :
    s.acks <+: (s.step file l).acks ∧ s.hooks <+: (s.step file l).hooks := by
  by_cases hl : ∃ n, l = .poll n
  · obtain ⟨n, rfl⟩ := hl
    obtain ⟨hhooks, -, -, hacks⟩ := poll_acks hc n
    change s.acks <+: (s.poll n).acks ∧ s.hooks <+: (s.poll n).hooks
    rw [hhooks]
    refine ⟨?_, List.prefix_refl _⟩
    rcases hacks with ⟨h, -⟩ | ⟨w, -, -, h⟩
    · simp [h]
    · rw [h]; exact List.prefix_append _ _
  · have hsame := step_acks (s := s) file (l := l) fun n h => hl ⟨n, h⟩
    exact ⟨by simp [hsame.1], hsame.2⟩

theorem Cached.step (hc : s.Cached) (l : RecordLabel) : (s.step file l).Cached := by
  cases l with
  | tick d => exact hc.same rfl rfl (Nat.le_add_right _ _)
  | start app stream =>
    simp only [Recorder.step]
    split_ifs
    · exact hc
    · exact hc.same rfl rfl le_rfl
  | stop app stream =>
    simp only [Recorder.step]
    cases s.running app stream <;> exact hc.same rfl rfl le_rfl
  | cut app stream =>
    simp only [Recorder.step]
    cases s.running app stream <;> exact hc.same rfl rfl le_rfl
  | hook n rank => exact hc.receiveHook n rank
  | poll n =>
    obtain ⟨hhooks, hitems, hnow, -⟩ := poll_acks hc n
    exact hc.same hitems hhooks (le_of_eq hnow.symm)

theorem last_mem {key : String} {d : Delivery} (h : s.recent key = some d) : d ∈ s.hooks := by
  have hd : s.last key = some d := (Option.filter_eq_some_iff.1 h).1
  exact (List.mem_filter.1 (List.mem_of_getLast? hd)).1

theorem Honest.step (hh : s.Honest) (hc : s.Cached) {l : RecordLabel} (hg : s.own l = true) :
    (s.step file l).Honest := by
  have hold : ∀ a ∈ s.acks, ∀ u, a.recordFileURL = some u →
      ∃ d ∈ (s.step file l).hooks, a.ended = some d.recording ∧ d.url = u := by
    intro a ha u hu
    obtain ⟨d, hd, h⟩ := hh a ha u hu
    exact ⟨d, (hc.grows file l).2.subset hd, h⟩
  by_cases hl : ∃ n, l = .poll n
  · obtain ⟨n, rfl⟩ := hl
    obtain ⟨hhooks, -, -, hacks⟩ := poll_acks hc n
    intro a ha u hu
    change a ∈ (s.poll n).acks at ha
    rcases hacks with ⟨h, -⟩ | ⟨w, hw, hdue, h⟩
    · rw [h] at ha
      exact hold a ha u hu
    · rw [h] at ha
      rcases List.mem_append.1 ha with ha | ha
      · exact hold a ha u hu
      · obtain rfl := List.mem_singleton.1 ha
        obtain ⟨d, hd, hurl⟩ := Option.map_eq_some_iff.1 hu
        refine ⟨d, (hc.grows file (.poll n)).2.subset (last_mem hd), ?_, hurl⟩
        simpa only [own, hw, hd, decide_eq_false hdue, Bool.false_or, Option.all_some,
          decide_eq_true_eq] using hg
  · have hsame := step_acks (s := s) file (l := l) fun n h => hl ⟨n, h⟩
    intro a ha u hu
    rw [hsame.1] at ha
    exact hold a ha u hu

theorem disowned (hc : s.Cached) (file : ℕ → String) {l : RecordLabel} (hg : s.own l = false) :
    ∃ (w : Resolver) (d : Delivery), s.recent (hookKey w.app w.stream) = some d ∧ w.ended ≠ some d.recording ∧
      (⟨w.app, w.stream, w.ended, some d.url⟩ : StopAck) ∈ (s.step file l).acks := by
  cases l with
  | poll n =>
    cases hw : s.resolvers[n]? with
    | none => simp only [own, hw] at hg; cases hg
    | some w =>
      simp only [own, hw, Bool.or_eq_false_iff, decide_eq_false_iff_not] at hg
      obtain ⟨hdue, hg⟩ := hg
      cases hd : s.recent (hookKey w.app w.stream) with
      | none => rw [hd] at hg; cases hg
      | some d =>
        rw [hd, Option.all_some, decide_eq_false_iff_not] at hg
        refine ⟨w, d, hd, hg, ?_⟩
        obtain ⟨-, -, -, ⟨-, h⟩ | ⟨x, hx, -, h⟩⟩ := poll_acks hc n
        · have hnone := h w hw hdue
          rw [hd] at hnone
          cases hnone
        · obtain rfl : w = x := by rw [hw] at hx; exact Option.some.inj hx
          change _ ∈ (s.poll n).acks
          rw [h, hd]
          exact List.mem_append_right _ (List.mem_singleton.2 rfl)
  | _ => cases hg

/-- A hook stores the file of its recording. -/
def Filed (file : ℕ → String) (s : Recorder) : Prop := ∀ d ∈ s.hooks, d.url = file d.recording

theorem Filed.step (hf : s.Filed file) (hc : s.Cached) (l : RecordLabel) :
    (s.step file l).Filed file := by
  by_cases hl : ∃ n rank, l = .hook n rank
  · obtain ⟨n, rank, rfl⟩ := hl
    simp only [Recorder.step, Recorder.receiveHook]
    split
    · exact hf
    · split_ifs
      · exact hf
      · exact hf
      · exact hf
      · intro d hd
        rcases List.mem_append.1 hd with hd | hd
        · exact hf d hd
        · rw [List.mem_singleton.1 hd]
  · have hhooks : (s.step file l).hooks = s.hooks := by
      cases l with
      | tick d => rfl
      | start app stream => simp only [Recorder.step]; split_ifs <;> rfl
      | stop app stream => simp only [Recorder.step]; cases s.running app stream <;> rfl
      | cut app stream => simp only [Recorder.step]; cases s.running app stream <;> rfl
      | hook n rank => exact absurd ⟨n, rank, rfl⟩ hl
      | poll n => exact (poll_acks hc n).1
    intro d hd
    exact hf d (hhooks ▸ hd)

end Steps

end Recorder

section Runs

variable (file : ℕ → String)

theorem recorder_cached (ls : List RecordLabel) : ((recorder file).run ls).Cached :=
  Machine.run_invariant (P := Recorder.Cached) (fun _ => Or.inl rfl) (fun _ l hc => hc.step l) ls

theorem recorder_filed (ls : List RecordLabel) : ((recorder file).run ls).Filed file := by
  have h : ((recorder file).run ls).Cached ∧ ((recorder file).run ls).Filed file :=
    Machine.run_invariant (P := fun s : Recorder => s.Cached ∧ s.Filed file)
      ⟨fun _ => Or.inl rfl, fun d hd => absurd hd List.not_mem_nil⟩
      (fun _ l h => ⟨h.1.step l, h.2.step h.1 l⟩) ls
  exact h.2

/-- If no poll meets a recent hook of a recording other than the one its record-stop
ended, every URL in an acknowledgement is of the recording that ended; when no two
recordings have the same file, only then. -/
theorem stops_answered_with_own_files (ls : List RecordLabel) :
    ((recorder file).Guarded (fun s l => s.own l = true) ls → ((recorder file).run ls).Honest) ∧
      (Function.Injective file → ((recorder file).run ls).Honest →
        (recorder file).Guarded (fun s l => s.own l = true) ls) := by
  constructor
  · exact Machine.guarded_invariant_of (Q := Recorder.Cached) (recorder_cached file)
      (fun a ha => (nomatch ha)) fun s l hg hc hh => hh.step hc hg
  · intro hfile hh
    refine Machine.guarded_of_splits fun pre l post hls => ?_
    by_contra hl
    have hc := recorder_cached file pre
    obtain ⟨w, d, hd, hne, hack⟩ := Recorder.disowned hc file (Bool.eq_false_iff.2 hl)
    -- the acknowledgement and the hook it was made from are there to the end
    have hlater : (⟨w.app, w.stream, w.ended, some d.url⟩ : StopAck) ∈ ((recorder file).run ls).acks ∧
        d ∈ ((recorder file).run ls).hooks := by
      have hgrown := (hc.grows file l).2.subset (Recorder.last_mem hd)
      have hrest := Machine.runFrom_invariant (M := recorder file)
        (P := fun s => s.Cached ∧ ⟨w.app, w.stream, w.ended, some d.url⟩ ∈ s.acks ∧ d ∈ s.hooks)
        (fun s i h => ⟨h.1.step i, (h.1.grows file i).1.subset h.2.1, (h.1.grows file i).2.subset h.2.2⟩) post _
        ⟨hc.step l, hack, hgrown⟩
      rw [hls, Machine.run_append]
      exact hrest.2
    obtain ⟨d', hd', hended, hurl⟩ := hh _ hlater.1 d.url rfl
    refine hne (hended.trans (congrArg some (hfile ?_)))
    rw [← recorder_filed file ls d' hd', ← recorder_filed file ls d hlater.2, hurl]

end Runs

/-! ### Two recordings of one stream -/

def numbered (n : ℕ) : String := "f" ++ toString n

def RecordLabel.take (n : ℕ) : List RecordLabel :=
  [.start "r" "a", .tick (10 * second), .stop "r" "a", .poll 0, .tick second, .hook n (fun _ => 0),
    .poll 0]

/-- The second recording starts half a minute after the first got its file. -/
theorem two_takes_answered :
    let s := (recorder numbered).run (RecordLabel.take 0 ++ .tick (30 * second) :: RecordLabel.take 1)
    s.acks.map (·.recordFileURL) = [some "f0", some "f1"] ∧ s.Honest :=
  ⟨by decide +kernel, (stops_answered_with_own_files numbered _).1 (by decide +kernel)⟩

/-- The second recording starts at once, and its stop finds the first one's file. -/
theorem stale_file_answered : ¬ ∀ (file : ℕ → String) (ls : List RecordLabel),
    ((recorder file).run ls).Honest := by
  intro h
  have hstale := h numbered (RecordLabel.take 0 ++ RecordLabel.take 1) ⟨"r", "a", some 1, some "f0"⟩
    (by decide +kernel) "f0" rfl
  exact absurd hstale (by decide +kernel)

end Meetkit
