import Meetkit.Model.Proxy

/-! The proxy tests a prefix of the text, and the request goes to the authority that
`net/url` reads: what continues the prefix can extend the port or the host, or turn
both into user information. -/

namespace Meetkit

open Url

namespace APIBase

variable {b : APIBase} {rest : List Char}

/-- The part of the authority that follows the configured text. -/
def extension (rest : List Char) : List Char := rest.takeWhile (· ∉ ['/', '?', '#'])

/-- What may follow the configured text for the request to go where it says. Only a
base without a port leaves room for an empty one. -/
def Continues (b : APIBase) (rest : List Char) : Prop :=
  if '@' ∈ extension rest then
    percentDecode (afterLast '@' (extension rest)) = some b.hostport ∨
      (b.port = none ∧ percentDecode (afterLast '@' (extension rest)) = some (b.hostport ++ [':']))
  else extension rest = [] ∨ (b.port = none ∧ extension rest = [':'])

instance (b : APIBase) (rest : List Char) : Decidable (b.Continues rest) := by
  unfold Continues
  infer_instance

theorem colonPort_char {c : Char} (hc : c ∈ b.colonPort) : c = ':' ∨ isDigit c := by
  have hdigits := b.port_digits
  unfold colonPort at hc
  cases hp : b.port with
  | none =>
    rw [hp] at hc
    cases hc
  | some port =>
    rw [hp] at hc hdigits
    exact (List.mem_cons.1 hc).imp id (List.all_eq_true.1 hdigits c)

theorem notMem_authority {c : Char} (hc : c ∈ ['/', '?', '#', '@']) : c ∉ b.authority := by
  intro h
  rcases List.mem_append.1 h with h | h
  · exact parseHost_ne_delimiter b.host_reads hc h
  · have hport := colonPort_char h
    revert hport
    simp only [List.mem_cons, List.not_mem_nil, or_false] at hc
    rcases hc with rfl | rfl | rfl | rfl <;> decide

theorem percentDecode_authority (b : APIBase) : percentDecode b.authority = some b.hostport := by
  have hport : percentDecode b.colonPort = some b.colonPort := by
    refine percentDecode_plain fun h => ?_
    have hpct := colonPort_char h
    revert hpct
    decide
  unfold authority hostport
  rw [percentDecode_append (percentDecode_of_parseHost b.host_reads), hport]
  rfl

theorem splitHostPort_eq_origin {s : List Char} :
    splitHostPort s = (b.hostname, b.port.getD []) ↔
      s = b.hostport ∨ (b.port = none ∧ s = b.hostport ++ [':']) := by
  rw [splitHostPort_iff]
  unfold hostport colonPort
  have hdigits := b.port_digits
  have hne := b.port_ne
  cases hp : b.port with
  | none => simp [b.host_alone, or_comm]
  | some port =>
    rw [hp] at hne hdigits
    have hport : port ≠ [] := fun h => hne (by rw [h])
    have hdigits' : port.all isDigit = true := hdigits
    simp [hdigits', hport]

/-- What the request's authority is made of. -/
theorem authority_of_parse {u : URL} (h : parse (b.text ++ rest) = some u) :
    u.scheme = b.scheme.map Char.toLower ∧
      parseHost (afterLast '@' (b.authority ++ extension rest)) = some u.host := by
  have hplain : ∀ c ∈ b.authority, decide (c ∉ ['/', '?', '#']) = true := by
    intro c hc
    have hc' : c ∉ ['/', '?', '#'] := fun h =>
      notMem_authority (List.mem_append_left ['@'] h) hc
    simpa using hc'
  unfold text at h
  rw [List.append_assoc, List.cons_append, List.cons_append, List.cons_append] at h
  obtain ⟨hscheme, hhost⟩ := parse_absolute b.scheme_head (List.all_eq_true.1 b.scheme_chars) h
  rw [List.takeWhile_append_of_pos hplain] at hhost
  exact ⟨hscheme, parseHost_of_parseAuthority hhost⟩

theorem host_iff {host : List Char}
    (h : parseHost (afterLast '@' (b.authority ++ extension rest)) = some host) :
    (host = b.hostport ∨ (b.port = none ∧ host = b.hostport ++ [':'])) ↔ b.Continues rest := by
  have hbase := b.percentDecode_authority
  unfold Continues
  by_cases hat : '@' ∈ extension rest
  · -- the configured text is user information
    rw [afterLast_append_of_mem hat] at h
    rw [if_pos hat, percentDecode_of_parseHost h]
    simp
  · have hwhole : '@' ∉ b.authority ++ extension rest := by
      rw [List.mem_append]
      exact not_or.2 ⟨notMem_authority (by decide), hat⟩
    rw [afterLast_of_notMem hwhole] at h
    rw [if_neg hat]
    have hdecode := percentDecode_of_parseHost h
    rw [percentDecode_append hbase] at hdecode
    obtain ⟨g, hg, rfl⟩ := Option.map_eq_some_iff.1 hdecode
    have hnil : b.hostport ++ g = b.hostport ↔ extension rest = [] := by
      rw [List.append_right_eq_self]
      constructor
      · rintro rfl
        exact percentDecode_eq_nil hg
      · intro he
        rw [he] at hg
        exact (Option.some.inj hg).symm
    have hcolon : b.hostport ++ g = b.hostport ++ [':'] ↔ extension rest = [':'] := by
      rw [List.append_cancel_left_eq]
      constructor
      · rintro rfl
        exact parseHost_append_colon hbase h
      · intro he
        rw [he] at hg
        exact (Option.some.inj hg).symm
    rw [hnil, hcolon]

theorem origin_iff {u : URL} (h : parse (b.text ++ rest) = some u) :
    u.origin = b.origin ↔ b.Continues rest := by
  obtain ⟨hscheme, hhost⟩ := authority_of_parse h
  rw [← host_iff hhost, ← splitHostPort_eq_origin]
  unfold URL.origin origin
  rw [hscheme]
  simp [Prod.ext_iff]

end APIBase

theorem recordFile_ok {apiBase : APIBase} {fileURL : List Char} {rangeHeader : String}
    {req : ProxyRequest} (h : recordFile apiBase fileURL rangeHeader = .ok req) :
    ∃ rest, fileURL = apiBase.text ++ rest ∧ parse fileURL = some req.url := by
  unfold recordFile at h
  by_cases hempty : fileURL = []
  · rw [if_pos hempty] at h
    cases h
  rw [if_neg hempty] at h
  by_cases hstart : apiBase.text.isPrefixOf fileURL
  · obtain ⟨rest, rfl⟩ := List.isPrefixOf_iff_prefix.1 hstart
    rw [if_neg (by simp [hstart])] at h
    cases hurl : parse (apiBase.text ++ rest) with
    | none =>
      rw [hurl] at h
      cases h
    | some url =>
      rw [hurl] at h
      cases h
      exact ⟨rest, rfl, rfl⟩
  · rw [if_pos (by simp [hstart])] at h
    cases h

/-- The proxy contacts the configured server exactly when the parameter continues
`APIBase` with the end of its authority. -/
theorem record_file_origin_iff {apiBase : APIBase} {fileURL : List Char} {rangeHeader : String}
    {req : ProxyRequest} (h : recordFile apiBase fileURL rangeHeader = .ok req) :
    req.url.origin = apiBase.origin ↔ apiBase.Continues (fileURL.drop apiBase.text.length) := by
  obtain ⟨rest, rfl, hparse⟩ := recordFile_ok h
  rw [List.drop_left]
  exact APIBase.origin_iff hparse

theorem recording_fetched_from_zlm :
    recordFile defaultAPIBase "http://127.0.0.1:80/record/live/r_a.mp4".toList "" =
        .ok ⟨⟨"http".toList, "127.0.0.1:80".toList⟩, none⟩ ∧
      URL.origin ⟨"http".toList, "127.0.0.1:80".toList⟩ = defaultAPIBase.origin :=
  ⟨by decide +kernel, (@record_file_origin_iff defaultAPIBase
    "http://127.0.0.1:80/record/live/r_a.mp4".toList "" ⟨_, none⟩ (by decide +kernel)).2
      (by decide +kernel)⟩

/-- The prefix of a port is a prefix of the text. -/
theorem other_port_contacted : ¬ ∀ (apiBase : APIBase) (fileURL : List Char) (rangeHeader : String)
    (req : ProxyRequest), recordFile apiBase fileURL rangeHeader = .ok req →
      req.url.origin = apiBase.origin := by
  intro h
  have hport := h defaultAPIBase "http://127.0.0.1:8081/index/api/getServerConfig".toList ""
    ⟨⟨"http".toList, "127.0.0.1:8081".toList⟩, none⟩ (by decide +kernel)
  exact absurd hport (by decide +kernel)

end Meetkit
