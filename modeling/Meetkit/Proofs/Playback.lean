import Meetkit.Model.Playback
import Meetkit.Proofs.ZlmRequests

/-! A recording is played back from where ZLM put it: the URL made of the hook survives the
page's encoding and the server's reading of it, and passes the check in front of the
proxy. -/

namespace Meetkit

open Query Text Url

section Prefix

variable {apiBase : List Char} {h : RecordMp4HookPayload}

theorem head?_trimLeft (c : Char) (s : List Char) : (trimLeft c s).head? ≠ some c := by
  intro hhead
  have hnot := List.head?_dropWhile_not (fun d => decide (d = c)) s
  rw [show (s.dropWhile fun d => decide (d = c)).head? = some c from hhead] at hnot
  simp at hnot

/-- The URL of a hook is the trimmed base, a slash, and something that begins with none. -/
theorem buildRecordURLFromHook_split (hne : buildRecordURLFromHook apiBase h ≠ []) :
    ∃ rel, rel.head? ≠ some '/' ∧
      buildRecordURLFromHook apiBase h = trimRight '/' apiBase ++ '/' :: rel := by
  obtain ⟨rel, hrel⟩ : ∃ rel, buildRecordURLFromHook apiBase h =
      if rel = [] then [] else trimRight '/' apiBase ++ '/' :: trimLeft '/' rel := ⟨_, rfl⟩
  rw [hrel] at hne ⊢
  split_ifs at hne ⊢ with hnil
  · exact absurd rfl hne
  · exact ⟨_, head?_trimLeft '/' rel, rfl⟩

/-- A trimmed text does not end in what was trimmed. -/
theorem trimRight_ne_concat (c : Char) (s t : List Char) : trimRight c s ≠ t ++ [c] := by
  intro heq
  have hidem : trimRight c (trimRight c s) = trimRight c s := List.rdropWhile_idempotent _ _
  rw [heq] at hidem
  have hcut : trimRight c (t ++ [c]) = trimRight c t :=
    List.rdropWhile_concat_pos _ _ _ (by simp)
  rw [hcut] at hidem
  have hle := (List.rdropWhile_prefix (fun d => decide (d = c)) t).length_le
  rw [show t.rdropWhile (fun d => decide (d = c)) = t ++ [c] from hidem, List.length_append,
    List.length_singleton] at hle
  omega

/-- It passes the proxy's check unless the base ends in two slashes. -/
theorem hook_url_prefix_iff (hne : buildRecordURLFromHook apiBase h ≠ []) :
    apiBase.isPrefixOf (buildRecordURLFromHook apiBase h) ↔ ¬['/', '/'] <:+ apiBase := by
  obtain ⟨rel, hrel, hurl⟩ := buildRecordURLFromHook_split hne
  obtain ⟨slashes, hslashes, hbase⟩ : ∃ slashes : List Char, (∀ c ∈ slashes, c = '/') ∧
      apiBase = trimRight '/' apiBase ++ slashes :=
    ⟨apiBase.rtakeWhile (· = '/'), fun c hc => by simpa using List.mem_rtakeWhile_imp hc,
      List.rdropWhile_append_rtakeWhile.symm⟩
  rw [hurl, List.isPrefixOf_iff_prefix]
  have hend := trimRight_ne_concat '/' apiBase
  generalize trimRight '/' apiBase = base at hbase hend
  subst hbase
  rw [List.prefix_append_right_inj]
  match slashes, hslashes with
  | [], _ =>
    refine iff_of_true (List.nil_prefix) ?_
    rintro ⟨t, ht⟩
    exact hend (t ++ ['/']) (by simpa using ht.symm)
  | [c], hall =>
    rw [hall c (by simp)]
    refine iff_of_true (List.cons_prefix_cons.2 ⟨rfl, List.nil_prefix⟩) ?_
    rintro ⟨t, ht⟩
    have hcut : t ++ ['/'] = base := by
      have hsnoc : (t ++ ['/']) ++ ['/'] = base ++ ['/'] := by simpa using ht
      exact List.append_cancel_right hsnoc
    exact hend t hcut.symm
  | c :: d :: slashes, hall =>
    have hc : c = '/' := hall c (by simp)
    have hd : d = '/' := hall d (by simp)
    refine iff_of_false ?_ ?_
    · intro hpre
      obtain ⟨r, hr⟩ := (List.cons_prefix_cons.1 hpre).2
      exact hrel (by rw [← hr, hd]; rfl)
    · rw [not_not]
      have hrep : c :: d :: slashes = List.replicate slashes.length '/' ++ ['/', '/'] := by
        rw [show ['/', '/'] = List.replicate 2 '/' from rfl, List.replicate_append_replicate]
        exact List.eq_replicate_iff.2 ⟨rfl, hall⟩
      rw [hrep, ← List.append_assoc]
      exact List.suffix_append _ _

end Prefix

/-! ### The page's URLs -/

section Pages

variable {url filename : List Char}

theorem recordFilePath_eq : recordFilePath =
    "/api/record-file".toList ++ '?' :: (encodeURIComponent "url".toList ++ ['=']) := by
  decide +kernel

/-- The handler finds in the preview's URL what the page put there. -/
theorem parseQuery_previewURL (hurl : IsBytes url) :
    parseQuery (cut '?' (previewURL url)).2 =
      [("url".toList, url), ("mode".toList, "preview".toList)] := by
  have hmode : "&mode=preview".toList =
      '&' :: (encodeURIComponent "mode".toList ++ '=' :: encodeURIComponent "preview".toList) := by
    decide +kernel
  have hjoin : previewURL url = "/api/record-file".toList ++ '?' ::
      join encodeURIComponent [("url".toList, url), ("mode".toList, "preview".toList)] := by
    rw [previewURL, recordFilePath_eq, hmode]
    simp only [join, List.map_cons, List.map_nil, List.intercalate_cons_cons,
      List.intercalate_singleton, List.append_assoc, List.cons_append, List.nil_append]
  rw [hjoin, cut_append (by decide +kernel)]
  refine parseQuery_join plain_plainInComponent ?_
  simp only [List.forall_mem_cons]
  exact ⟨⟨by decide, hurl⟩, by decide, by simp⟩

theorem parseQuery_downloadURL (hurl : IsBytes url) (hname : IsBytes filename) :
    parseQuery (cut '?' (downloadURL url filename)).2 =
      [("url".toList, url), ("mode".toList, "download".toList), ("filename".toList, filename)] := by
  have hmode : "&mode=download&filename=".toList =
      '&' :: (encodeURIComponent "mode".toList ++ '=' :: (encodeURIComponent "download".toList ++
        '&' :: (encodeURIComponent "filename".toList ++ ['=']))) := by
    decide +kernel
  have hjoin : downloadURL url filename = "/api/record-file".toList ++ '?' ::
      join encodeURIComponent [("url".toList, url), ("mode".toList, "download".toList),
        ("filename".toList, filename)] := by
    rw [downloadURL, recordFilePath_eq, hmode]
    simp only [join, List.map_cons, List.map_nil, List.intercalate_cons_cons,
      List.intercalate_singleton, List.append_assoc, List.cons_append, List.nil_append]
  rw [hjoin, cut_append (by decide +kernel)]
  refine parseQuery_join plain_plainInComponent ?_
  simp only [List.forall_mem_cons]
  exact ⟨⟨by decide, hurl⟩, by decide, ⟨by decide, hname⟩, by simp⟩

end Pages

/-! ### The whole way -/

theorem APIBase.not_suffix_slashes (b : APIBase) : ¬['/', '/'] <:+ b.text := by
  rintro ⟨t, ht⟩
  have hend := trimRight_ne_concat '/' b.text (t ++ ['/'])
  rw [b.trimRight_text, ← ht] at hend
  exact hend (by simp)

/-- The handler passes the URL of a hook on to ZLM if it is one. -/
theorem recordFile_hook (b : APIBase) {h : RecordMp4HookPayload}
    (hne : buildRecordURLFromHook b.text h ≠ []) (rangeHeader : String) :
    recordFile b (buildRecordURLFromHook b.text h) rangeHeader =
      match parse (buildRecordURLFromHook b.text h) with
      | none => .error .badRequest
      | some url => .ok ⟨url, if rangeHeader = "" then none else some rangeHeader⟩ := by
  have hprefix := (hook_url_prefix_iff hne).2 b.not_suffix_slashes
  unfold recordFile
  rw [if_neg hne, hprefix]
  rfl

/-- A path right after the base begins with a slash, so the authority is the base's. -/
theorem APIBase.origin_of_path (b : APIBase) {path : List Char} {u : URL}
    (h : parse (b.text ++ '/' :: path) = some u) : u.origin = b.origin := by
  refine (APIBase.origin_iff h).2 ?_
  have hext : APIBase.extension ('/' :: path) = [] := rfl
  unfold APIBase.Continues
  rw [hext]
  exact Or.inl rfl

theorem origin_of_hook (b : APIBase) {h : RecordMp4HookPayload} {u : URL}
    (hne : buildRecordURLFromHook b.text h ≠ [])
    (hu : parse (buildRecordURLFromHook b.text h) = some u) : u.origin = b.origin := by
  obtain ⟨rel, -, hurl⟩ := buildRecordURLFromHook_split hne
  rw [hurl, b.trimRight_text] at hu
  exact b.origin_of_path hu

def liveHook : RecordMp4HookPayload where
  fileName := "1.mp4".toList
  filePath := "/opt/media/www/record/my room/u&1/1.mp4".toList

end Meetkit
