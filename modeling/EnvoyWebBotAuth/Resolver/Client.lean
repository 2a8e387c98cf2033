import EnvoyWebBotAuth.Resolver.Cache
/-!
# The HTTP client

What `ReqwestFetcher` makes of the answer to a request (`fetch.rs`): its checks
of status, media type, content encoding and size. The `reqwest` crate is
outside: it gives a response or fails. So is `httpDate`, which reads a date.
-/
open EnvoyWebBotAuth.Lib EnvoyWebBotAuth.Protocol

namespace EnvoyWebBotAuth.Resolver

def maxResponseBytes : Nat := 64 * 1024

/-- The media type before its parameters, in lower case. -/
def mediaTypeEssence (value : List Char) : List Char :=
  (trimAscii (value.takeWhile (· ≠ ';'))).map Char.toLower

def ResourceKind.acceptsContentType (kind : ResourceKind) (url : Url) (contentType : Option (List Char)) : Bool :=
  match contentType with
  | none => false
  | some value =>
    let essence := mediaTypeEssence value
    match kind with
    | .jwks =>
      if isDirectoryUrl url then essence = "application/http-message-signatures-directory+json".toList
      else essence = "application/jwk-set+json".toList || essence = "application/json".toList
    | .cimd =>
      essence = "application/json".toList ||
        ("application/".toList.isPrefixOf essence && "+json".toList.isSuffixOf essence)

/-- A response as it comes: the body in chunks, of which one may fail. -/
structure HttpReply where
  status : Nat
  headers : Headers
  contentLength : Option Nat
  chunks : List (Option Bytes)

/-- What comes of sending a request. -/
inductive Sent where
  | timedOut
  /-- Also if no client could be built. -/
  | failed
  | replied (reply : HttpReply)

def HttpReply.header (reply : HttpReply) (name : String) : Option (List Char) :=
  (reply.headers.getFirst name).bind toStr

def maxRetryAfter : Duration := fromSecs 300

def parseRetryAfter (httpDate : List Char → Option SystemTime) (value : List Char) (now : SystemTime) :
    Option Duration :=
  let delay := ((parseU64 value).map fromSecs).or ((httpDate value).bind (fun date => durationSince date now))
  delay.map (min · maxRetryAfter)

/-- The loop over the chunks. -/
def collectBody (body : Bytes) : List (Option Bytes) → Except FetchError Bytes
  | [] => .ok body
  | none :: _ => .error (.new .transport)
  | some chunk :: chunks =>
    if maxResponseBytes < body.length + chunk.length then .error (.new .bodyTooLarge)
    else collectBody (body ++ chunk) chunks

def acceptedStatuses : List Nat := [200, 304]

def HttpReply.receive (httpDate : List Char → Option SystemTime) (reply : HttpReply) (request : FetchRequest)
    (now : SystemTime) : Except FetchError FetchResponse :=
  if reply.status ∉ acceptedStatuses then
    .error
      { kind := .httpStatus
        status := some reply.status
        retryAfter := (reply.header "retry-after").bind (fun value => parseRetryAfter httpDate value now) }
  else if reply.status = 200 ∧ request.kind.acceptsContentType request.url (reply.header "content-type") = false then
    .error (.new .mediaType)
  else if (reply.header "content-encoding").any (fun value => !eqIgnoreAsciiCase value "identity".toList) then
    .error (.new .contentEncoding)
  else if reply.contentLength.any (maxResponseBytes < ·) then .error (.new .bodyTooLarge)
  else do
    let body ← collectBody [] reply.chunks
    .ok ⟨reply.status, reply.headers, body⟩

/-- `ReqwestFetcher::fetch`; `now` is when the head of the response is there. -/
def clientFetch (httpDate : List Char → Option SystemTime) (request : FetchRequest) (now : SystemTime) :
    Sent → Except FetchError FetchResponse
  | .timedOut => .error (.new .timeout)
  | .failed => .error (.new .transport)
  | .replied reply => reply.receive httpDate request now

/-! ## What the client lets through -/

variable {httpDate : List Char → Option SystemTime} {request : FetchRequest} {now : SystemTime}

theorem collectBody_ok {body whole : Bytes} {chunks : List (Option Bytes)} (h : collectBody body chunks = .ok whole)
    (hb : body.length ≤ maxResponseBytes) : whole.length ≤ maxResponseBytes := by
  induction chunks generalizing body with
  | nil =>
    obtain rfl := Except.ok.inj h
    exact hb
  | cons chunk chunks ih =>
    cases chunk with
    | none => cases h
    | some chunk =>
      rw [collectBody] at h
      split at h
      · cases h
      · rename_i hle
        apply ih h
        rw [List.length_append]
        omega

/-- A response the client gives is a success of an accepted type or a
revalidation, and it is not large. -/
theorem clientFetch_ok {sent : Sent} {response : FetchResponse}
    (h : clientFetch httpDate request now sent = .ok response) :
    (response.status = 200 ∨ response.status = notModifiedStatus) ∧
      (response.status = 200 → request.kind.acceptsContentType request.url
        ((response.headers.getFirst "content-type").bind toStr) = true) ∧
      response.body.length ≤ maxResponseBytes := by
  cases sent with
  | timedOut => cases h
  | failed => cases h
  | replied reply =>
    simp only [clientFetch, HttpReply.receive] at h
    split at h
    · cases h
    rename_i hstatus
    split at h
    · cases h
    rename_i htype
    split at h
    · cases h
    split at h
    · cases h
    rw [bind_ok] at h
    obtain ⟨body, hbody, hr⟩ := h
    obtain rfl := Except.ok.inj hr
    refine ⟨?_, ?_, collectBody_ok hbody (Nat.zero_le _)⟩
    · have hmem : reply.status ∈ acceptedStatuses := not_not.1 hstatus
      simpa [acceptedStatuses, notModifiedStatus] using hmem
    · intro hok
      by_contra hn
      exact htype ⟨hok, Bool.not_eq_true _ ▸ hn⟩

/-! ## Which replies it takes -/

/-- A head that passes the checks made before the body is read. -/
structure HeadAccepted (request : FetchRequest) (reply : HttpReply) : Prop where
  status : reply.status ∈ acceptedStatuses
  mediaType : reply.status = 200 → request.kind.acceptsContentType request.url (reply.header "content-type") = true
  encoding : ∀ value, reply.header "content-encoding" = some value → eqIgnoreAsciiCase value "identity".toList = true
  length : ∀ length, reply.contentLength = some length → length ≤ maxResponseBytes

/-- The body is the chunks, however it is cut. -/
theorem collectBody_ok_iff {body whole : Bytes} {chunks : List (Option Bytes)} (hb : body.length ≤ maxResponseBytes) :
    collectBody body chunks = .ok whole ↔
      ∃ parts : List Bytes, chunks = parts.map some ∧ whole = body ++ parts.flatten ∧ whole.length ≤ maxResponseBytes := by
  induction chunks generalizing body with
  | nil =>
    constructor
    · intro h
      obtain rfl := Except.ok.inj h
      exact ⟨[], rfl, by simp, hb⟩
    · rintro ⟨parts, hparts, rfl, -⟩
      obtain rfl := List.map_eq_nil_iff.1 hparts.symm
      simp [collectBody]
  | cons chunk chunks ih =>
    cases chunk with
    | none =>
      refine ⟨nofun, ?_⟩
      rintro ⟨parts, hparts, -, -⟩
      cases parts with
      | nil => cases hparts
      | cons part parts => cases hparts
    | some chunk =>
      rw [collectBody]
      split
      · rename_i hlong
        refine ⟨nofun, ?_⟩
        rintro ⟨parts, hparts, rfl, hwhole⟩
        cases parts with
        | nil => cases hparts
        | cons part parts =>
          obtain ⟨hpart, -⟩ := List.cons.inj hparts
          obtain rfl := Option.some.inj hpart
          simp only [List.flatten_cons, List.length_append] at hwhole
          omega
      · rename_i hfits
        rw [ih (by rw [List.length_append]; omega)]
        constructor
        · rintro ⟨parts, rfl, rfl, hwhole⟩
          exact ⟨chunk :: parts, rfl, by simp, hwhole⟩
        · rintro ⟨parts, hparts, rfl, hwhole⟩
          cases parts with
          | nil => cases hparts
          | cons part parts =>
            obtain ⟨hpart, hrest⟩ := List.cons.inj hparts
            obtain rfl := Option.some.inj hpart
            exact ⟨parts, hrest, by simp, hwhole⟩

/-- A body is cut off where a chunk fails or the limit is passed, whichever is first. -/
theorem collectBody_error {body : Bytes} {chunks : List (Option Bytes)} {error : FetchError}
    (h : collectBody body chunks = .error error) (hb : body.length ≤ maxResponseBytes) :
    (error = .new .transport ∧ ∃ (parts : List Bytes) (rest : List (Option Bytes)), chunks = parts.map some ++ none :: rest ∧
      (body ++ parts.flatten).length ≤ maxResponseBytes) ∨
    (error = .new .bodyTooLarge ∧ ∃ (parts : List Bytes) (rest : List (Option Bytes)), chunks = parts.map some ++ rest ∧
      maxResponseBytes < (body ++ parts.flatten).length) := by
  induction chunks generalizing body with
  | nil => cases h
  | cons chunk chunks ih =>
    cases chunk with
    | none =>
      obtain rfl := Except.error.inj h
      exact .inl ⟨rfl, [], chunks, rfl, by simpa using hb⟩
    | some chunk =>
      rw [collectBody] at h
      split at h
      · rename_i hlong
        obtain rfl := Except.error.inj h
        exact .inr ⟨rfl, [chunk], chunks, rfl, by simpa using hlong⟩
      · rename_i hfits
        rcases ih h (by rw [List.length_append]; omega) with ⟨he, parts, rest, rfl, hle⟩ | ⟨he, parts, rest, rfl, hlt⟩
        · exact .inl ⟨he, chunk :: parts, rest, rfl, by simpa using hle⟩
        · exact .inr ⟨he, chunk :: parts, rest, rfl, by simpa using hlt⟩

/-- A reply that is turned down for its head. -/
inductive HeadRefused (httpDate : List Char → Option SystemTime) (now : SystemTime) (reply : HttpReply) :
    FetchError → Prop
  | status (h : reply.status ∉ acceptedStatuses) : HeadRefused httpDate now reply
      { kind := .httpStatus
        status := some reply.status
        retryAfter := (reply.header "retry-after").bind (fun value => parseRetryAfter httpDate value now) }
  | kind {kind : FetchErrorKind} (h : reply.status ∈ acceptedStatuses)
      (hk : kind ∈ [FetchErrorKind.mediaType, .contentEncoding, .bodyTooLarge]) : HeadRefused httpDate now reply (.new kind)

theorem receive_cases (httpDate : List Char → Option SystemTime) (request : FetchRequest) (now : SystemTime)
    (reply : HttpReply) :
    (HeadAccepted request reply ∧ reply.receive httpDate request now =
      collectBody [] reply.chunks >>= fun body => .ok ⟨reply.status, reply.headers, body⟩) ∨
    (¬HeadAccepted request reply ∧ ∃ error, reply.receive httpDate request now = .error error ∧
      HeadRefused httpDate now reply error) := by
  unfold HttpReply.receive
  split
  · rename_i hstatus
    exact .inr ⟨fun h => hstatus h.status, _, rfl, .status hstatus⟩
  rename_i hstatus
  rw [not_not] at hstatus
  split
  · rename_i htype
    refine .inr ⟨fun h => ?_, _, rfl, .kind hstatus (by simp)⟩
    rw [h.mediaType htype.1] at htype
    cases htype.2
  rename_i htype
  split
  · rename_i hencoding
    refine .inr ⟨fun h => ?_, _, rfl, .kind hstatus (by simp)⟩
    obtain ⟨value, hvalue, hne⟩ := (Option.any_eq_true _ _).1 hencoding
    rw [h.encoding value hvalue] at hne
    cases hne
  rename_i hencoding
  split
  · rename_i hlength
    refine .inr ⟨fun h => ?_, _, rfl, .kind hstatus (by simp)⟩
    obtain ⟨length, hl, hlt⟩ := (Option.any_eq_true _ _).1 hlength
    exact absurd (h.length length hl) (Nat.not_le.2 (of_decide_eq_true hlt))
  rename_i hlength
  refine .inl ⟨⟨hstatus, fun hok => ?_, fun value hvalue => ?_, fun length hl => ?_⟩, rfl⟩
  · by_contra hn
    exact htype ⟨hok, Bool.not_eq_true _ ▸ hn⟩
  · by_contra hn
    refine hencoding ((Option.any_eq_true _ _).2 ⟨value, hvalue, ?_⟩)
    rw [Bool.eq_false_of_not_eq_true hn]
    rfl
  · by_contra hn
    exact hlength ((Option.any_eq_true _ _).2 ⟨length, hl, decide_eq_true (Nat.lt_of_not_le hn)⟩)

/-- The origin could not be reached, or says or shows that it may be later. -/
inductive Unavailable (request : FetchRequest) : Sent → Prop
  | timedOut : Unavailable request .timedOut
  | failed : Unavailable request .failed
  | status {reply : HttpReply} (h : transientStatus reply.status = true) : Unavailable request (.replied reply)
  | broken {reply : HttpReply} {parts : List Bytes} {rest : List (Option Bytes)} (head : HeadAccepted request reply)
      (chunks : reply.chunks = parts.map some ++ none :: rest) (fits : parts.flatten.length ≤ maxResponseBytes) :
      Unavailable request (.replied reply)

theorem parseRetryAfter_le {httpDate : List Char → Option SystemTime} {value : List Char} {now : SystemTime}
    {delay : Duration} (h : parseRetryAfter httpDate value now = some delay) : delay ≤ maxRetryAfter := by
  obtain ⟨raw, -, rfl⟩ := Option.map_eq_some_iff.1 h
  exact Nat.min_le_right _ _

theorem acceptedStatuses_final {status : Nat} (h : status ∈ acceptedStatuses) : transientStatus status = false := by
  simp only [acceptedStatuses, List.mem_cons, List.not_mem_nil, or_false] at h
  rcases h with rfl | rfl <;> decide

/-- With the head accepted, the origin was unavailable only if the body broke off. -/
theorem unavailable_body {reply : HttpReply} (hhead : HeadAccepted request reply) :
    Unavailable request (.replied reply) ↔ ∃ (parts : List Bytes) (rest : List (Option Bytes)),
      reply.chunks = parts.map some ++ none :: rest ∧ parts.flatten.length ≤ maxResponseBytes := by
  constructor
  · intro h
    cases h with
    | status ht =>
      rw [acceptedStatuses_final hhead.status] at ht
      cases ht
    | broken _ hchunks hfits => exact ⟨_, _, hchunks, hfits⟩
  · rintro ⟨parts, rest, hchunks, hfits⟩
    exact .broken hhead hchunks hfits

/-- Two bodies that are cut off are cut off the same way. -/
theorem cut_agrees {chunks : List (Option Bytes)} {parts parts' : List Bytes} {rest rest' : List (Option Bytes)}
    (h : chunks = parts.map some ++ none :: rest) (hfits : parts.flatten.length ≤ maxResponseBytes)
    (h' : chunks = parts'.map some ++ rest') : parts'.flatten.length ≤ maxResponseBytes := by
  -- what comes before the failed chunk is all there is
  have hprefix : parts' <+: parts := by
    subst h
    clear hfits
    induction parts generalizing parts' with
    | nil =>
      cases parts' with
      | nil => exact List.prefix_rfl
      | cons part' parts' => cases h'
    | cons part parts ih =>
      cases parts' with
      | nil => exact List.nil_prefix
      | cons part' parts' =>
        obtain ⟨hpart, hrest⟩ := List.cons.inj h'
        obtain rfl := Option.some.inj hpart
        exact (List.prefix_cons_inj _).2 (ih hrest)
  obtain ⟨more, rfl⟩ := hprefix
  rw [List.flatten_append, List.length_append] at hfits
  omega

/-- What a failure says of the reply or of the lack of one. -/
def Judged (request : FetchRequest) (sent : Sent) (error : FetchError) : Prop :=
  (error.allowsStale = true ↔ Unavailable request sent) ∧
    ∀ delay, error.retryAfter = some delay → delay ≤ maxRetryAfter ∧
      ∃ reply, sent = .replied reply ∧ error.status = some reply.status ∧ reply.status ∉ acceptedStatuses

theorem cutOff_judged {reply : HttpReply} {error : FetchError} (hhead : HeadAccepted request reply)
    (h : collectBody [] reply.chunks = .error error) : Judged request (.replied reply) error := by
  unfold Judged
  rw [unavailable_body hhead]
  rcases collectBody_error h (Nat.zero_le _) with ⟨rfl, parts, rest, hchunks, hfits⟩ | ⟨rfl, parts, rest, hchunks, hlong⟩
  · exact ⟨⟨fun _ => ⟨parts, rest, hchunks, hfits⟩, fun _ => by decide⟩, nofun⟩
  · refine ⟨⟨fun hn => absurd hn (by decide), ?_⟩, nofun⟩
    rintro ⟨parts', rest', hchunks', hfits'⟩
    exact absurd (cut_agrees hchunks' hfits' hchunks) (Nat.not_le.2 hlong)

theorem refused_judged {reply : HttpReply} {error : FetchError} (hhead : ¬HeadAccepted request reply)
    (h : HeadRefused httpDate now reply error) : Judged request (.replied reply) error := by
  have hiff : Unavailable request (.replied reply) ↔ transientStatus reply.status = true := by
    refine ⟨fun hu => ?_, .status⟩
    cases hu with
    | status ht => exact ht
    | broken haccepted => exact absurd haccepted hhead
  unfold Judged
  rw [hiff]
  cases h with
  | status hstatus =>
    refine ⟨?_, fun delay hdelay => ?_⟩
    · cases ht : transientStatus reply.status <;> simp [FetchError.allowsStale, FetchError.class, ht]
    · obtain ⟨value, -, hvalue⟩ := Option.bind_eq_some_iff.1 hdelay
      exact ⟨parseRetryAfter_le hvalue, reply, rfl, rfl, hstatus⟩
  | kind hstatus hk =>
    rw [acceptedStatuses_final hstatus]
    simp only [List.mem_cons, List.not_mem_nil, or_false] at hk
    rcases hk with rfl | rfl | rfl <;> exact ⟨by decide, by rintro delay ⟨⟩⟩

/-- The client gives a response exactly for a reply with an accepted head and a
body within the limit, whatever the chunks; and its failure lets a stale document
be used exactly if the origin was unavailable, never for what it sent. -/
theorem client_judges_replies (httpDate : List Char → Option SystemTime) (request : FetchRequest) (now : SystemTime)
    (sent : Sent) :
    (∀ response, clientFetch httpDate request now sent = .ok response ↔ ∃ (reply : HttpReply) (parts : List Bytes),
      sent = .replied reply ∧ HeadAccepted request reply ∧ reply.chunks = parts.map some ∧
      parts.flatten.length ≤ maxResponseBytes ∧ response = ⟨reply.status, reply.headers, parts.flatten⟩) ∧
    ∀ error, clientFetch httpDate request now sent = .error error → Judged request sent error := by
  cases sent with
  | timedOut =>
    refine ⟨fun response => ⟨nofun, fun ⟨_, _, h, _⟩ => by cases h⟩, fun error h => ?_⟩
    obtain rfl := Except.error.inj h
    exact ⟨⟨fun _ => .timedOut, fun _ => by decide⟩, nofun⟩
  | failed =>
    refine ⟨fun response => ⟨nofun, fun ⟨_, _, h, _⟩ => by cases h⟩, fun error h => ?_⟩
    obtain rfl := Except.error.inj h
    exact ⟨⟨fun _ => .failed, fun _ => by decide⟩, nofun⟩
  | replied reply =>
    rcases receive_cases httpDate request now reply with ⟨hhead, hr⟩ | ⟨hhead, error, hr, hrefused⟩
    · simp only [clientFetch, hr]
      constructor
      · intro response
        rw [bind_ok]
        constructor
        · rintro ⟨body, hbody, h⟩
          obtain rfl := Except.ok.inj h
          obtain ⟨parts, hchunks, rfl, hfits⟩ := (collectBody_ok_iff (Nat.zero_le _)).1 hbody
          exact ⟨reply, parts, rfl, hhead, hchunks, hfits, rfl⟩
        · rintro ⟨reply', parts, he, -, hchunks, hfits, rfl⟩
          obtain rfl := Sent.replied.inj he
          exact ⟨parts.flatten, (collectBody_ok_iff (Nat.zero_le _)).2 ⟨parts, hchunks, rfl, hfits⟩, rfl⟩
      · intro error h
        refine cutOff_judged hhead ?_
        cases hb : collectBody [] reply.chunks with
        | error error' =>
          rw [hb, error_bind] at h
          rw [Except.error.inj h]
        | ok body =>
          rw [hb, ok_bind] at h
          cases h
    · simp only [clientFetch, hr]
      refine ⟨fun response => ⟨nofun, ?_⟩, ?_⟩
      · rintro ⟨reply', parts, he, haccepted, -⟩
        obtain rfl := Sent.replied.inj he
        exact absurd haccepted hhead
      · intro error' h
        obtain rfl := Except.error.inj h
        exact refused_judged hhead hrefused

end EnvoyWebBotAuth.Resolver
