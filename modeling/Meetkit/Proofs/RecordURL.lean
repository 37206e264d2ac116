import Meetkit.Model.RecordURL

/-! Where the `www` directory of a recorded file is found: at the first `www/` in its path,
which is ZLM's own directory unless a directory above has a name that ends in `www`. -/

namespace Meetkit

open Text

/-- No directory of the path has a name that ends in `www`. -/
def NoWww (dir : List Char) : Prop := ¬www <:+: dir ++ ['/']

section Paths

variable {dir rel : List Char} {i : ℕ}

def recorded (dir rel : List Char) : List Char := dir ++ '/' :: www ++ rel

theorem recorded_eq (dir rel : List Char) : recorded dir rel = (dir ++ ['/']) ++ (www ++ rel) := by
  simp [recorded]

theorem www_prefix_drop (dir rel : List Char) :
    www <+: (recorded dir rel).drop (dir.length + 1) := by
  have hlen : (dir ++ ['/']).length = dir.length + 1 := by simp
  rw [recorded_eq, ← hlen, List.drop_left]
  exact List.prefix_append _ _

theorem www_infix_of_lt (h : www <+: (recorded dir rel).drop i) (hi : i < dir.length + 1) :
    i + 4 ≤ dir.length + 1 ∧ www <:+: dir ++ ['/'] := by
  have hle : i ≤ (dir ++ ['/']).length := by
    rw [List.length_append, List.length_singleton]
    omega
  rw [recorded_eq, List.drop_append_of_le_length hle] at h
  set e := (dir ++ ['/']).drop i with he
  have helen : e.length = dir.length + 1 - i := by
    rw [he, List.length_drop, List.length_append, List.length_singleton]
  have hslash : '/' ∈ e := by
    rw [he, List.drop_append_of_le_length (by omega)]
    exact List.mem_append_right _ List.mem_cons_self
  have hlong : 4 ≤ e.length := by
    by_contra hshort
    -- a shorter rest of the directory would be `w`, `ww` or `www`
    have hpre : e <+: www := List.prefix_of_prefix_length_le (List.prefix_append _ _) h (by
      change e.length ≤ 4
      omega)
    rw [List.prefix_iff_eq_take] at hpre
    rw [hpre] at hslash
    have hthree : www.take e.length <+: ['w', 'w', 'w'] := by
      have htake : www.take e.length = (www.take 3).take e.length := by
        rw [List.take_take, Nat.min_eq_left (by omega)]
      rw [htake]
      exact List.take_prefix _ _
    exact absurd (hthree.subset hslash) (by decide)
  refine ⟨by omega, ?_⟩
  have hsub : www <+: e := List.prefix_of_prefix_length_le h (List.prefix_append _ _) hlong
  exact hsub.isInfix.trans (List.drop_suffix _ _).isInfix

/-- The search finds ZLM's directory, or an earlier `www/`. -/
theorem index_www (dir rel : List Char) :
    (NoWww dir ∧ index www (recorded dir rel) = some (dir.length + 1)) ∨
      (¬NoWww dir ∧ ∃ i, index www (recorded dir rel) = some i ∧ i + 4 ≤ dir.length + 1) := by
  obtain ⟨i, hi, hindex⟩ := index_le (www_prefix_drop dir rel)
  by_cases hno : NoWww dir
  · refine Or.inl ⟨hno, ?_⟩
    rcases Nat.lt_or_eq_of_le hi with hlt | heq
    · exact absurd (www_infix_of_lt (index_spec hindex) hlt).2 hno
    · rw [hindex, heq]
  · refine Or.inr ⟨hno, ?_⟩
    obtain ⟨a, b, hab⟩ := not_not.1 hno
    have hpre : www <+: (recorded dir rel).drop a.length := by
      rw [recorded_eq, ← hab, List.append_assoc, List.append_assoc, List.drop_left]
      exact List.prefix_append _ _
    obtain ⟨i', hi', hindex'⟩ := index_le hpre
    have hlen := congrArg List.length hab
    simp only [List.length_append, List.length_singleton] at hlen
    have hwww : www.length = 4 := rfl
    exact ⟨i', hindex', by omega⟩

theorem filePathToHTTP_recorded (dir : List Char) (hrel : rel.head? ≠ some '/') :
    (NoWww dir ∧ filePathToHTTP (recorded dir rel) = '/' :: rel) ∨
      (¬NoWww dir ∧ ∃ e, filePathToHTTP (recorded dir rel) = e ++ (www ++ rel)) := by
  unfold filePathToHTTP
  rw [Option.or_self]
  rcases index_www dir rel with ⟨hno, hindex⟩ | ⟨hno, i, hindex, hi⟩
  · refine Or.inl ⟨hno, ?_⟩
    have hlen : (dir ++ '/' :: www).length = dir.length + 1 + 4 := by simp [www]
    rw [hindex]
    dsimp only
    rw [← hlen, recorded, List.drop_left, if_neg]
    rw [List.isPrefixOf_iff_prefix]
    rintro ⟨t, ht⟩
    rw [← ht] at hrel
    exact hrel rfl
  · refine Or.inr ⟨hno, ?_⟩
    have hle : i + 4 ≤ (dir ++ ['/']).length := by simpa using hi
    rw [hindex]
    dsimp only
    rw [recorded_eq, List.drop_append_of_le_length hle]
    split_ifs
    · exact ⟨_, rfl⟩
    · exact ⟨'/' :: _, rfl⟩

theorem filePathToHTTP_iff (hrel : rel.head? ≠ some '/') :
    filePathToHTTP (recorded dir rel) = '/' :: rel ↔ NoWww dir := by
  rcases filePathToHTTP_recorded dir hrel with ⟨hno, heq⟩ | ⟨hno, e, heq⟩
  · exact ⟨fun _ => hno, fun _ => heq⟩
  · refine ⟨fun h => ?_, fun h => absurd h hno⟩
    have hlen := congrArg List.length (heq.symm.trans h)
    simp only [List.length_append, List.length_cons, www, List.length_nil] at hlen
    omega

theorem buildRecordURLFromHook_of_path (apiBase : List Char) {h : RecordMp4HookPayload}
    {path : List Char} (hurl : trimSpaceList h.url = []) (hpath : filePathToHTTP h.filePath = path)
    (hne : path ≠ []) :
    buildRecordURLFromHook apiBase h = trimRight '/' apiBase ++ '/' :: trimLeft '/' path := by
  simp [buildRecordURLFromHook, hurl, hpath, hne]

theorem buildRecordURLFromHook_iff (apiBase : List Char) {h : RecordMp4HookPayload}
    (hrel : rel.head? ≠ some '/') (hurl : trimSpaceList h.url = [])
    (hpath : h.filePath = recorded dir rel) :
    buildRecordURLFromHook apiBase h = trimRight '/' apiBase ++ '/' :: rel ↔ NoWww dir := by
  rcases filePathToHTTP_recorded dir hrel with ⟨hno, heq⟩ | ⟨hno, e, heq⟩
  · rw [← hpath] at heq
    rw [buildRecordURLFromHook_of_path apiBase hurl heq (List.cons_ne_nil _ _), trimLeft_cons_self,
      trimLeft_of_head hrel]
    exact ⟨fun _ => hno, fun _ => rfl⟩
  · rw [← hpath] at heq
    rw [buildRecordURLFromHook_of_path apiBase hurl heq (by simp [www])]
    refine ⟨fun h => ?_, fun h => absurd h hno⟩
    -- what is left of the path after the trim still has a `www/` before the file
    have hcut := (List.cons.inj (List.append_cancel_left h)).2
    have hsuffix : www ++ rel <:+ trimLeft '/' (e ++ (www ++ rel)) :=
      suffix_trimLeft (by simp [www])
    rw [hcut] at hsuffix
    have hlen := hsuffix.length_le
    simp only [List.length_append, www, List.length_cons, List.length_nil] at hlen
    omega

/-- A recorded file is mapped to the path ZLM serves it under, and the hook for it to that
path below `apiBase`, if and only if no directory above ZLM's has a name that ends in
`www`. -/
theorem recorded_file_url_iff (apiBase dir rel : List Char) (h : RecordMp4HookPayload)
    (hrel : rel.head? ≠ some '/') (hurl : trimSpaceList h.url = [])
    (hpath : h.filePath = recorded dir rel) :
    (filePathToHTTP (recorded dir rel) = '/' :: rel ∧
        buildRecordURLFromHook apiBase h = trimRight '/' apiBase ++ '/' :: rel) ↔ NoWww dir := by
  rw [filePathToHTTP_iff hrel, buildRecordURLFromHook_iff apiBase hrel hurl hpath, and_self_iff]

/-- ZLM in a directory without `www`, and a base that ends in a slash. -/
theorem recorded_file_url_opt :
    filePathToHTTP "/opt/zlm/www/record/live/a.mp4".toList = "/record/live/a.mp4".toList ∧
      buildRecordURLFromHook "http://zlm:8081/".toList
          { filePath := "/opt/zlm/www/record/live/a.mp4".toList, url := " ".toList } =
        "http://zlm:8081/record/live/a.mp4".toList :=
  (recorded_file_url_iff "http://zlm:8081/".toList "/opt/zlm".toList "record/live/a.mp4".toList
    { filePath := "/opt/zlm/www/record/live/a.mp4".toList, url := " ".toList } (by decide)
    (by decide +kernel) (by decide)).2 (by
      unfold NoWww
      decide +kernel)

/-- ZLM in a directory below `/var/www`. -/
theorem www_above_is_found : ¬∀ dir rel : List Char, dir.head? = some '/' →
    dir.getLast? ≠ some '/' → rel ≠ [] → rel.head? ≠ some '/' →
    ['w', 'w', 'w'] ∉ rel.splitOn '/' →
    filePathToHTTP (dir ++ "/www/".toList ++ rel) = '/' :: rel := by
  intro h
  have hvar := h "/var/www/zlm".toList "record/live/a.mp4".toList (by decide) (by decide)
    (by decide) (by decide) (by decide +kernel)
  exact absurd hvar (by decide +kernel)

end Paths

end Meetkit
