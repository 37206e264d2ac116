import Meetkit.Model.ZlmRequests
import Meetkit.Proofs.Proxy

/-! Whatever characters a room, a stream or the secret is made of, ZLM is asked for just
what the server means: no name can end its parameter, add one or stand for another. -/

namespace Meetkit

open Query Text Url

namespace ZlmRequest

/-- Every parameter is set once. -/
theorem query_nodup (secret : Bytes) (r : ZlmRequest) : ((r.query secret).map Prod.fst).Nodup := by
  cases r with
  | exchangeSDP =>
    exact (by decide : ["app".toList, "stream".toList, "type".toList, "vhost".toList].Nodup)
  | startRecord | stopRecord | isRecording =>
    exact (by decide : ["secret".toList, "type".toList, "vhost".toList, "app".toList,
      "stream".toList].Nodup)
  | closeStream =>
    exact (by decide : ["secret".toList, "vhost".toList, "app".toList, "stream".toList,
      "force".toList].Nodup)
  | getMediaList => exact (by decide : ["secret".toList, "vhost".toList].Nodup)
  | getThreadsLoad | getWorkThreadsLoad | getStatistic | getVersion =>
    exact List.nodup_singleton _

theorem query_bytes (secret : Bytes) (r : ZlmRequest) :
    ∀ p ∈ r.query secret, IsBytes p.1 ∧ IsBytes p.2 := by
  have hrtc : ∀ t : WebRTCType, IsBytes t.text := by intro t; cases t <;> decide
  have hrecord : ∀ t : RecordType, IsBytes t.text := by intro t; cases t <;> decide
  have hvhost : IsBytes "vhost".toList ∧ IsBytes defaultVhost := by decide
  cases r with
  | exchangeSDP t app stream =>
    simp only [query, List.forall_mem_cons]
    exact ⟨⟨by decide, app.2⟩, ⟨by decide, stream.2⟩, ⟨by decide, hrtc t⟩, hvhost, by simp⟩
  | startRecord app stream t | stopRecord app stream t | isRecording app stream t =>
    simp only [query, recordQuery, List.forall_mem_cons]
    exact ⟨⟨by decide, secret.2⟩, ⟨by decide, hrecord t⟩, hvhost, ⟨by decide, app.2⟩,
      ⟨by decide, stream.2⟩, by simp⟩
  | closeStream app stream =>
    simp only [query, List.forall_mem_cons]
    exact ⟨⟨by decide, secret.2⟩, hvhost, ⟨by decide, app.2⟩, ⟨by decide, stream.2⟩, by decide,
      by simp⟩
  | getMediaList =>
    simp only [query, List.forall_mem_cons]
    exact ⟨⟨by decide, secret.2⟩, hvhost, by simp⟩
  | getThreadsLoad | getWorkThreadsLoad | getStatistic | getVersion =>
    simp only [query, secretQuery, List.forall_mem_cons]
    exact ⟨⟨by decide, secret.2⟩, by simp⟩

/-- The receiver finds each parameter under its name. -/
theorem get_query (secret : Bytes) (r : ZlmRequest) {k v : List Char} (h : (k, v) ∈ r.query secret) :
    (parseQuery (r.query secret).encode).get k = v :=
  get_encode (query_bytes secret r) (query_nodup secret r) h

theorem asBytes_val (s : Bytes) : asBytes s.1 = some s := dif_pos s.2

theorem readType_text (t : WebRTCType) : readType t.text = some t := by
  cases t <;> decide

theorem readRecordType_text (t : RecordType) : readRecordType t.text = some t := by
  cases t <;> decide

/-- An app and a stream among the parameters are read back. -/
theorem asBytes_get (secret : Bytes) (r : ZlmRequest) {app stream : Bytes}
    (happ : ("app".toList, app.1) ∈ r.query secret)
    (hstream : ("stream".toList, stream.1) ∈ r.query secret) :
    asBytes ((parseQuery (r.query secret).encode).get "app".toList) = some app ∧
      asBytes ((parseQuery (r.query secret).encode).get "stream".toList) = some stream := by
  rw [get_query secret r happ, get_query secret r hstream]
  exact ⟨asBytes_val app, asBytes_val stream⟩

/-- The three record requests have one query. -/
theorem read_recordQuery (secret app stream : Bytes) (t : RecordType) :
    let q := parseQuery (recordQuery secret app stream t).encode
    asBytes (q.get "app".toList) = some app ∧ asBytes (q.get "stream".toList) = some stream ∧
      readRecordType (q.get "type".toList) = some t := by
  have hmem : ("app".toList, app.1) ∈ recordQuery secret app stream t ∧
      ("stream".toList, stream.1) ∈ recordQuery secret app stream t ∧
      ("type".toList, t.text) ∈ recordQuery secret app stream t := by
    simp [recordQuery]
  have hfields := asBytes_get secret (startRecord app stream t) hmem.1 hmem.2.1
  have htype := get_query secret (startRecord app stream t) hmem.2.2
  refine ⟨hfields.1, hfields.2, ?_⟩
  rw [show (parseQuery (recordQuery secret app stream t).encode).get "type".toList = t.text
    from htype]
  exact readRecordType_text t

/-- The receiver finds the request in what is sent of it. -/
theorem readRequest_query (secret : Bytes) (r : ZlmRequest) :
    readRequest r.path (parseQuery (r.query secret).encode) = some r := by
  cases r with
  | exchangeSDP t app stream =>
    have hmem : ("app".toList, app.1) ∈ (exchangeSDP t app stream).query secret ∧
        ("stream".toList, stream.1) ∈ (exchangeSDP t app stream).query secret ∧
        ("type".toList, t.text) ∈ (exchangeSDP t app stream).query secret := by
      simp [query]
    obtain ⟨happ, hstream⟩ := asBytes_get secret _ hmem.1 hmem.2.1
    have htype := get_query secret _ hmem.2.2
    unfold readRequest
    simp only [happ, hstream, htype, readType_text]
    rfl
  | startRecord app stream t | stopRecord app stream t | isRecording app stream t =>
    obtain ⟨happ, hstream, htype⟩ := read_recordQuery secret app stream t
    unfold readRequest
    simp only [query, happ, hstream, htype]
    rfl
  | closeStream app stream =>
    have hmem : ("app".toList, app.1) ∈ (closeStream app stream).query secret ∧
        ("stream".toList, stream.1) ∈ (closeStream app stream).query secret := by
      simp [query]
    obtain ⟨happ, hstream⟩ := asBytes_get secret _ hmem.1 hmem.2
    unfold readRequest
    simp only [happ, hstream]
    rfl
  | getMediaList | getThreadsLoad | getWorkThreadsLoad | getStatistic | getVersion => rfl

theorem path_plain (r : ZlmRequest) : '%' ∉ r.path ∧ '?' ∉ r.path := by
  unfold path
  split <;> decide

theorem path_visible (r : ZlmRequest) : ∀ c ∈ r.path, isCTL c = false ∧ c ≠ '#' := by
  rw [← List.forall_iff_forall_mem]
  unfold path
  split <;> decide

theorem path_head (r : ZlmRequest) : r.path.head? = some '/' := by
  unfold path
  split <;> rfl

end ZlmRequest

/-- `strings.TrimRight(APIBase, "/")` leaves a base of the documented form as it is. -/
theorem APIBase.trimRight_text (b : APIBase) : trimRight '/' b.text = b.text := by
  have hauth : b.authority ≠ [] := fun h => b.host_ne (List.append_eq_nil_iff.1 h).1
  obtain ⟨front, c, hc⟩ := (List.eq_nil_or_concat b.authority).resolve_left hauth
  rw [List.concat_eq_append] at hc
  have hslash : c ≠ '/' := by
    rintro rfl
    have hmem : '/' ∈ b.authority := by
      rw [hc]
      exact List.mem_append_right front List.mem_cons_self
    exact APIBase.notMem_authority (by decide) hmem
  have htext : b.text = (b.scheme ++ ':' :: '/' :: '/' :: front) ++ [c] := by
    rw [APIBase.text, hc]
    simp
  rw [htext]
  exact List.rdropWhile_concat_neg _ _ _ (by simpa using hslash)

namespace APIBase

theorem parseAuthority_authority (b : APIBase) : parseAuthority b.authority = some b.hostport := by
  have hat : '@' ∉ b.authority := notMem_authority (by decide)
  have hport : b.port ≠ some [] := b.port_ne
  unfold parseAuthority
  rw [if_neg (fun h => hat h.1), afterLast_of_notMem hat]
  unfold authority hostport colonPort
  cases hp : b.port with
  | none => simpa using b.host_reads
  | some port =>
    have hdigits := b.port_digits
    rw [hp] at hdigits
    exact parseHost_append_port b.host_reads b.host_ne b.host_alone hdigits

theorem authority_visible (b : APIBase) : ∀ c ∈ b.authority, isCTL c = false ∧ c ≠ '#' := by
  intro c hc
  refine ⟨?_, by rintro rfl; exact notMem_authority (by decide) hc⟩
  rcases List.mem_append.1 hc with hc | hc
  · exact isCTL_of_parseHost b.host_reads c hc
  · rcases colonPort_char hc with rfl | hd
    · decide
    · exact isCTL_isDigit hd

theorem origin_hostport (b : APIBase) : URL.origin ⟨b.scheme.map Char.toLower, b.hostport⟩ = b.origin := by
  unfold URL.origin origin
  rw [splitHostPort_eq_origin.2 (.inl rfl)]

end APIBase

/-- What the server asks of ZLM is what ZLM is asked: whatever bytes the names and the
secret are, reading the endpoint gives the request back, its parameters are those set and
no others, and it is a URL of the configured server. -/
theorem zlm_request_round_trip (b : APIBase) (secret : Bytes) (r : ZlmRequest) :
    readEndpoint b.text (r.endpoint b.text secret) = some r ∧
      (parseQuery (cut '?' ((r.endpoint b.text secret).drop b.text.length)).2).Perm
        (r.query secret) ∧
      ∃ u, parse (r.endpoint b.text secret) = some u ∧ u.origin = b.origin := by
  have hend : r.endpoint b.text secret = b.text ++ (r.path ++ '?' :: (r.query secret).encode) := by
    rw [ZlmRequest.endpoint, b.trimRight_text, List.append_assoc]
  have hdrop : (r.endpoint b.text secret).drop b.text.length =
      r.path ++ '?' :: (r.query secret).encode := by
    rw [hend, List.drop_left]
  refine ⟨?_, ?_, ⟨_, ?_, b.origin_hostport⟩⟩
  · unfold readEndpoint
    rw [if_pos (List.isPrefixOf_iff_prefix.2 (hend ▸ List.prefix_append _ _)), hdrop,
      cut_append r.path_plain.2]
    exact ZlmRequest.readRequest_query secret r
  · rw [hdrop, cut_append r.path_plain.2]
    exact parseQuery_encode (ZlmRequest.query_bytes secret r)
  · have htext : b.text ++ (r.path ++ '?' :: (r.query secret).encode) =
        b.scheme ++ ':' :: '/' :: '/' :: (b.authority ++ (r.path ++ '?' :: (r.query secret).encode)) := by
      simp [APIBase.text]
    rw [hend, htext]
    refine parse_of_parts b.scheme_head (List.all_eq_true.1 b.scheme_chars) b.parseAuthority_authority
      ⟨APIBase.notMem_authority (by decide), APIBase.notMem_authority (by decide)⟩ r.path_head
      r.path_plain fun c hc => ?_
    rcases List.mem_append.1 hc with hc | hc
    · exact b.authority_visible c hc
    rcases List.mem_append.1 hc with hc | hc
    · exact r.path_visible c hc
    rcases List.mem_cons.1 hc with rfl | hc
    · decide
    · exact visible_encode (ZlmRequest.query_bytes secret r) c hc

end Meetkit
