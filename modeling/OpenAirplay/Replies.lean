import OpenAirplay.Acceptance
import OpenAirplay.Authentication
import OpenAirplay.Encodings

/-!
# Replies on the wire

A connection from the bytes it receives to the bytes it sends. Text of the request comes back
in the replies, and none of it can end a line: the client finds one reply for each request, in
order and under the number it gave the request.
-/

namespace OpenAirplay

open Program Stream Text

set_option autoImplicit false

/-! ## Writing a response -/

namespace Response

def line (response : Response) : String :=
  "RTSP/1.0 " ++ Nat.repr response.status ++ " " ++ response.reason

/-- No handler gives its response a body, so there is none to announce. -/
def bytes (response : Response) : Bytes :=
  lineBytes response.line .crlf ++ headersBytes response.headers fun _ => .crlf

structure Plain (response : Response) : Prop where
  status_small : response.status < 2 ^ 16
  reason_one_line : '\n' ∉ response.reason.toList
  reason_trimmed : trim response.reason = response.reason
  few_headers : response.headers.length ≤ maxHeaders
  headers_plain : ∀ header ∈ response.headers, PlainHeader header

end Response

/-! ## The client's side -/

def statusLine (line : String) : Except ReadError (Nat × String) :=
  match splitN ' ' 3 line with
  | [version, status, reason] =>
    match parseUnsigned (2 ^ 16) status with
    | none => .error (.malformedRequestLine line)
    | some status =>
      if startsWith version "RTSP/" then .ok (status, reason) else .error (.notRtsp line)
  | _ => .error (.malformedRequestLine line)

/-- The reply to one request, up to the empty line. -/
def readResponse : Reading Response := do
  match ← readLine with
  | none => throw .unexpectedEof
  | some line =>
    let (status, reason) ← statusLine line
    let headers ← readHeaders maxHeaders []
    pure ⟨status, reason, headers⟩

namespace Response.Plain

variable {response : Response}

theorem line_reads (h : response.Plain) :
    Reads readLine (lineBytes response.line .crlf) (some response.line) := by
  apply readLine_reads
  · simp only [line, String.toList_append, List.mem_append, not_or]
    refine ⟨⟨⟨by decide, fun hmem => ?_⟩, by decide⟩, h.reason_one_line⟩
    exact absurd (isDigit_of_mem_repr hmem) (by decide)
  · intro c hc
    rw [line, String.toList_append] at hc
    cases hreason : response.reason.toList with
    | nil =>
      rw [hreason, List.append_nil, String.toList_append, List.getLast?_append] at hc
      cases hc
      decide
    | cons d reason =>
      have hlast : response.reason.toList.getLast? = some c := by
        rw [List.getLast?_append, hreason] at hc
        rw [hreason]
        simpa [List.getLast?_cons] using hc
      have hnot := getLast_trim h.reason_trimmed hlast
      by_contra hend
      simp only [isLineEnd, Bool.not_eq_false, Bool.or_eq_true, beq_iff_eq] at hend
      rcases hend with rfl | rfl <;> exact absurd hnot (by decide)

theorem statusLine_line (h : response.Plain) :
    statusLine response.line = .ok (response.status, response.reason) := by
  have hversion : splitOnce response.line ' ' =
      some ("RTSP/1.0", Nat.repr response.status ++ " " ++ response.reason) := by
    apply splitOnce_eq (by decide)
    simp only [line, String.toList_append, List.append_assoc]
    rfl
  have hstatus : splitOnce (Nat.repr response.status ++ " " ++ response.reason) ' ' =
      some (Nat.repr response.status, response.reason) := by
    apply splitOnce_eq
    · exact fun hmem => absurd (isDigit_of_mem_repr hmem) (by decide)
    · simp only [String.toList_append, List.append_assoc]
      rfl
  have hrtsp : startsWith "RTSP/1.0" "RTSP/" = true := by decide
  simp only [statusLine, splitN, hversion, hstatus, parseUnsigned_repr h.status_small, hrtsp,
    if_true]

theorem reads (h : response.Plain) : Reads readResponse response.bytes response := by
  have hheaders := readHeaders_reads h.headers_plain h.few_headers [] fun _ => LineEnd.crlf
  unfold readResponse
  apply h.line_reads.bind
  simp only [h.statusLine_line]
  exact (Reads.lift _).bind (hheaders.bind_last (Reads.pure _))

end Response.Plain

/-! ## Headers of the handlers -/

theorem newline_notMem {s : String} (h : ∀ c ∈ s.toList, isWhitespace c = false) :
    '\n' ∉ s.toList := fun hmem => absurd (h _ hmem) (by decide)

theorem plainHeader_of_ends {name value : String} (hname : trim name = name)
    (hnewline : '\n' ∉ name.toList) (hcolon : ':' ∉ name.toList) (hvalue : '\n' ∉ value.toList)
    (hfirst : ∀ c, value.toList.head? = some c → isWhitespace c = false)
    (hlast : ∀ c, value.toList.getLast? = some c → isWhitespace c = false) :
    PlainHeader (name, value) :=
  ⟨hname, trim_eq_self hfirst hlast, hnewline, hvalue, hcolon⟩

/-- A reply as a handler makes it: well formed, and neither numbered nor signed yet. -/
structure Presented (response : Response) : Prop where
  status_small : response.status < 2 ^ 16
  reason_one_line : '\n' ∉ response.reason.toList
  reason_trimmed : trim response.reason = response.reason
  few_headers : response.headers.length ≤ 2
  headers_plain : ∀ header ∈ response.headers, PlainHeader header
  own : ∀ header ∈ response.headers, eqIgnoreAsciiCase header.1 "CSeq" = false ∧
    eqIgnoreAsciiCase header.1 "Apple-Response" = false

theorem presented_new {status : Nat} {reason : String} (hstatus : status < 2 ^ 16)
    (hline : '\n' ∉ reason.toList) (htrim : trim reason = reason) :
    Presented (.new status reason) :=
  ⟨hstatus, hline, htrim, Nat.zero_le _, nofun, nofun⟩

theorem presented_ok : Presented .ok := presented_new (by decide) (by decide) (by decide)

theorem Presented.header {response : Response} (h : Presented response)
    (hfew : response.headers.length < 2) {name value : String}
    (hplain : PlainHeader (name, value)) (hname : eqIgnoreAsciiCase name "CSeq" = false ∧
      eqIgnoreAsciiCase name "Apple-Response" = false) :
    Presented (response.header name value) where
  status_small := h.status_small
  reason_one_line := h.reason_one_line
  reason_trimmed := h.reason_trimmed
  few_headers := by
    rw [Response.header, List.length_append, List.length_singleton]
    omega
  headers_plain := by
    intro header hmem
    rcases List.mem_append.mp hmem with hmem | hmem
    · exact h.headers_plain header hmem
    · rw [List.mem_singleton.mp hmem]
      exact hplain
  own := by
    intro header hmem
    rcases List.mem_append.mp hmem with hmem | hmem
    · exact h.own header hmem
    · rw [List.mem_singleton.mp hmem]
      exact hname

namespace Session

theorem presented_challenge {nonce : String} (h : ∀ c ∈ nonce.toList, isWhitespace c = false) :
    Presented (challenge nonce) := by
  refine (presented_new (by decide) (by decide) (by decide)).header (by decide) ?_ (by decide)
  apply plainHeader_of_ends (by decide) (by decide) (by decide)
  · simp only [String.toList_append, List.mem_append, not_or]
    exact ⟨⟨by decide, newline_notMem h⟩, by decide⟩
  · intro c hc
    simp only [String.toList_append, List.append_assoc] at hc
    cases hc
    decide
  · intro c hc
    rw [String.toList_append, List.getLast?_append] at hc
    cases hc
    decide

theorem presented_announce (crates : Crates) (s : Session) (request : Request) :
    Presented (s.handleAnnounce crates request).2 := by
  simp only [handleAnnounce]
  split
  · exact presented_new (by decide) (by decide) (by decide)
  · split
    · exact presented_ok
    · split
      · exact presented_ok
      · exact presented_new (by decide) (by decide) (by decide)
    · exact presented_new (by decide) (by decide) (by decide)

theorem plainHeader_transport (control timing audio : Nat) :
    PlainHeader ("Transport", "RTP/AVP/UDP;unicast;interleaved=0-1;mode=record;control_port=" ++
      Nat.repr control ++ ";timing_port=" ++ Nat.repr timing ++ ";server_port=" ++
      Nat.repr audio) := by
  have hrepr : ∀ n, '\n' ∉ (Nat.repr n).toList := fun n hmem =>
    absurd (isDigit_of_mem_repr hmem) (by decide)
  apply plainHeader_of_ends (by decide) (by decide) (by decide)
  · simp only [String.toList_append, List.mem_append, not_or]
    exact ⟨⟨⟨⟨⟨by decide, hrepr _⟩, by decide⟩, hrepr _⟩, by decide⟩, hrepr _⟩
  · intro c hc
    simp only [String.toList_append, List.append_assoc] at hc
    cases hc
    decide
  · intro c hc
    rw [String.toList_append, List.getLast?_append_of_ne_nil _ (repr_ne_empty audio)] at hc
    exact isWhitespace_of_isDigit (isDigit_of_mem_repr (List.mem_of_getLast? hc))

theorem presented_startStream (s : Session) (params : Audio.StreamParams) (ports : Ports)
    (controlPort timingPort : U16) :
    Returns (s.startStream params ports controlPort timingPort) fun result =>
      Presented result.2 := by
  unfold startStream
  refine .bind_any fun _ => .bind_any fun _ => .bind_any fun _ => .bind_any fun _ => ?_
  refine .bind_any fun _ => .bind_any fun _ => .bind_any fun _ => .bind_any fun _ => ?_
  refine .bind_any fun _ => .pure ?_
  have htransport := presented_ok.header (by decide)
    (plainHeader_transport ports.control.toNat ports.timing.toNat ports.audio.toNat) (by decide)
  refine htransport.header (Nat.lt_succ_self 1) ?_ (by decide)
  exact ⟨by decide, by decide, by decide, by decide, by decide⟩

theorem presented_openStream (s : Session) (params : Audio.StreamParams) (request : Request)
    (localIp : IpAddr) :
    Returns (s.openStream params request localIp) fun result => Presented result.2 := by
  unfold openStream
  split
  · exact .pure (presented_new (by decide) (by decide) (by decide))
  · refine .bind_any fun bound => ?_
    split
    · exact .pure (presented_new (by decide) (by decide) (by decide))
    · exact presented_startStream _ _ _ _ _

theorem presented_setup (s : Session) (request : Request) (localIp : IpAddr) :
    Returns (s.handleSetup request localIp) fun result => Presented result.2 := by
  unfold handleSetup
  split
  · exact .pure (presented_new (by decide) (by decide) (by decide))
  · split
    · exact presented_openStream _ _ _ _
    · refine .bind_any fun acquired => ?_
      split
      · exact presented_openStream _ _ _ _
      · exact .pure (presented_new (by decide) (by decide) (by decide))

theorem presented_other (crates : Crates) (s : Session) (request : Request) :
    Returns (s.handleOther crates request) fun result =>
      Presented (result.2.getD (.new 501 "Not Implemented")) := by
  unfold handleOther
  split
  · exact .bind_any fun _ => .pure presented_ok
  · exact .bind_any fun _ => .pure presented_ok
  · exact .bind_any fun _ => .pure presented_ok
  · exact .pure presented_ok
  · exact .pure (presented_new (by decide) (by decide) (by decide))

/-- The nonce of the connection, if it has one, was made by it. -/
def NonceMade (crates : Crates) (s : Session) : Prop :=
  ∀ nonce, s.authNonce = some nonce → ∃ bytes, nonce = crates.base64Encode bytes

end Session

namespace Context

open Session

theorem presented_route (ctx : Context) (s : Session) (request : Request) :
    Returns (ctx.route s request) fun result => Presented result.2 := by
  unfold route
  split
  · refine .pure (presented_ok.header (by decide) ?_ (by decide))
    exact ⟨by decide, by decide, by decide, by decide, by decide⟩
  · exact .pure (presented_announce _ _ _)
  · exact presented_setup _ _ _
  · refine .pure (presented_ok.header (by decide) ?_ (by decide))
    exact ⟨by decide, by decide, by decide, by decide, by decide⟩
  · exact .bind (presented_other _ _ _) fun _ h => .pure h

/-! ## Headers of every reply -/

def numberHeaders (request : Request) : Headers :=
  ((request.headers.get "CSeq").map fun cseq => ("CSeq", cseq)).toList

/-- The answer to the challenge of a request, if there is one and it can be answered. -/
def signature (ctx : Context) (request : Request) : Option String :=
  (request.headers.get "Apple-Challenge").bind fun challenge =>
    (Crypto.appleResponse ctx.crates challenge ctx.localIp ctx.mac).toOption

def signatureHeaders (ctx : Context) (request : Request) : Headers :=
  (ctx.signature request).toList.map fun value => ("Apple-Response", value)

theorem finish_headers (ctx : Context) (request : Request) (response : Response) :
    (ctx.finish request response).headers = response.headers ++ (numberHeaders request ++
      ([("Server", serverId), ("Audio-Jack-Status", "connected; type=analog")] ++
        ctx.signatureHeaders request)) := by
  simp only [finish, numberHeaders, signatureHeaders, signature]
  cases request.headers.get "CSeq" <;> cases request.headers.get "Apple-Challenge" with
  | none => simp [Response.header]
  | some challenge =>
    simp only [Option.bind_some]
    cases Crypto.appleResponse ctx.crates challenge ctx.localIp ctx.mac <;>
      simp [Response.header, Except.toOption]

theorem finish_reason (ctx : Context) (request : Request) (response : Response) :
    (ctx.finish request response).reason = response.reason := by
  simp only [finish]
  cases request.headers.get "CSeq" <;> cases request.headers.get "Apple-Challenge"
  · rfl
  · simp only
    split <;> rfl
  · rfl
  · simp only
    split <;> rfl

theorem plain_numberHeaders {request : Request}
    (h : ∀ header ∈ request.headers, PlainHeader header) :
    ∀ header ∈ numberHeaders request, PlainHeader header := by
  intro header hmem
  simp only [numberHeaders, Option.mem_toList, Option.map_eq_some_iff, Headers.get] at hmem
  obtain ⟨cseq, ⟨found, hfound, rfl⟩, rfl⟩ := hmem
  have hplain := h found (List.mem_of_find?_eq_some hfound)
  have hname : trim "CSeq" = "CSeq" ∧ '\n' ∉ "CSeq".toList ∧ ':' ∉ "CSeq".toList := by decide
  exact ⟨hname.1, hplain.value_trimmed, hname.2.1, hplain.value_one_line, hname.2.2⟩

theorem isWhitespace_of_signature {ctx : Context} (hcrates : Base64Texts ctx.crates)
    {request : Request} {value : String} (h : ctx.signature request = some value) :
    ∀ c ∈ value.toList, isWhitespace c = false := by
  obtain ⟨challenge, -, hvalue⟩ := Option.bind_eq_some_iff.mp h
  unfold Crypto.appleResponse at hvalue
  split at hvalue
  · cases hvalue
  · split at hvalue
    · cases hvalue
    · cases hvalue
      exact hcrates.encodeNoPad _

theorem plain_signatureHeaders {ctx : Context} (hcrates : Base64Texts ctx.crates)
    (request : Request) : ∀ header ∈ ctx.signatureHeaders request, PlainHeader header := by
  intro header hmem
  obtain ⟨value, hvalue, rfl⟩ := List.mem_map.mp hmem
  have htext := isWhitespace_of_signature hcrates (Option.mem_toList.mp hvalue)
  exact plainHeader_of_ends (by decide) (by decide) (by decide) (newline_notMem htext)
    (fun c hc => htext c (List.mem_of_head? hc)) fun c hc => htext c (List.mem_of_getLast? hc)

theorem length_signatureHeaders (ctx : Context) (request : Request) :
    (ctx.signatureHeaders request).length ≤ 1 := by
  unfold signatureHeaders
  cases ctx.signature request <;> simp

theorem plain_finish {ctx : Context} (hcrates : Base64Texts ctx.crates) {request : Request}
    (hrequest : ∀ header ∈ request.headers, PlainHeader header) {response : Response}
    (h : Presented response) : (ctx.finish request response).Plain where
  status_small := by
    rw [finish_status]
    exact h.status_small
  reason_one_line := by
    rw [finish_reason]
    exact h.reason_one_line
  reason_trimmed := by
    rw [finish_reason]
    exact h.reason_trimmed
  few_headers := by
    have hnumber : (numberHeaders request).length ≤ 1 := by
      unfold numberHeaders
      cases request.headers.get "CSeq" <;> simp
    have hsignature := length_signatureHeaders ctx request
    have hown := h.few_headers
    simp only [finish_headers, List.length_append, List.length_cons, List.length_nil, maxHeaders]
    omega
  headers_plain := by
    intro header hmem
    simp only [finish_headers, List.mem_append, List.mem_cons, List.not_mem_nil, or_false] at hmem
    rcases hmem with hmem | hmem | (rfl | rfl) | hmem
    · exact h.headers_plain header hmem
    · exact plain_numberHeaders hrequest header hmem
    · exact ⟨by decide, by decide, by decide, by decide, by decide⟩
    · exact ⟨by decide, by decide, by decide, by decide, by decide⟩
    · exact plain_signatureHeaders hcrates request header hmem

/-- The reply has the number of its request and no other. -/
theorem number_finish (ctx : Context) (request : Request) {response : Response}
    (h : Presented response) :
    Headers.get (ctx.finish request response).headers "CSeq" = request.headers.get "CSeq" := by
  have hown : Headers.get response.headers "CSeq" = none := by
    simp only [Headers.get, Option.map_eq_none_iff, List.find?_eq_none, Bool.not_eq_true]
    exact fun header hmem => (h.own header hmem).1
  have hname : eqIgnoreAsciiCase "CSeq" "CSeq" = true := by decide
  have hserver : eqIgnoreAsciiCase "Server" "CSeq" = false := by decide
  have hjack : eqIgnoreAsciiCase "Audio-Jack-Status" "CSeq" = false := by decide
  have hsignature : List.find? (fun kv => eqIgnoreAsciiCase kv.1 "CSeq")
      (ctx.signatureHeaders request) = none := by
    rw [List.find?_eq_none]
    intro header hmem
    obtain ⟨value, -, rfl⟩ := List.mem_map.mp hmem
    have happle : ¬eqIgnoreAsciiCase "Apple-Response" "CSeq" = true := by decide
    exact happle
  simp only [Headers.get, Option.map_eq_none_iff] at hown
  rw [finish_headers, Headers.get, List.find?_append, hown, Option.none_or, List.find?_append]
  simp only [numberHeaders]
  cases request.headers.get "CSeq" with
  | none => simp [hserver, hjack, hsignature]
  | some cseq => simp [hname]

/-- It has the answer to the challenge of its request and no other. -/
theorem signature_finish (ctx : Context) (request : Request) {response : Response}
    (h : Presented response) :
    Headers.get (ctx.finish request response).headers "Apple-Response" =
      ctx.signature request := by
  have hown : Headers.get response.headers "Apple-Response" = none := by
    simp only [Headers.get, Option.map_eq_none_iff, List.find?_eq_none, Bool.not_eq_true]
    exact fun header hmem => (h.own header hmem).2
  have hcseq : eqIgnoreAsciiCase "CSeq" "Apple-Response" = false := by decide
  have hserver : eqIgnoreAsciiCase "Server" "Apple-Response" = false := by decide
  have hjack : eqIgnoreAsciiCase "Audio-Jack-Status" "Apple-Response" = false := by decide
  have hname : eqIgnoreAsciiCase "Apple-Response" "Apple-Response" = true := by decide
  have hnumber : List.find? (fun kv => eqIgnoreAsciiCase kv.1 "Apple-Response")
      (numberHeaders request) = none := by
    rw [List.find?_eq_none]
    intro header hmem
    simp only [numberHeaders, Option.mem_toList, Option.map_eq_some_iff] at hmem
    obtain ⟨cseq, -, rfl⟩ := hmem
    simp [hcseq]
  simp only [Headers.get, Option.map_eq_none_iff] at hown
  rw [finish_headers, Headers.get, List.find?_append, hown, Option.none_or, List.find?_append,
    hnumber, Option.none_or, signatureHeaders]
  cases ctx.signature request with
  | none => simp [hserver, hjack]
  | some value => simp [hserver, hjack, hname]

/-! ## One request -/

theorem runs_dispatch_presented {ctx : Context} (hcrates : Base64Texts ctx.crates)
    {s s' : Session} {request : Request} {trace : Trace} {response : Response}
    (hmade : s.NonceMade ctx.crates) (h : Runs (ctx.dispatch s request) trace (s', response)) :
    (∃ presented, Presented presented ∧ response = ctx.finish request presented) ∧
      s'.NonceMade ctx.crates := by
  by_cases hadmits : s.admits ctx request
  · obtain ⟨routed, rfl, hroute⟩ := runs_dispatch_of_admits hadmits h
    refine ⟨⟨routed, presented_route ctx _ request _ _ hroute, rfl⟩, ?_⟩
    obtain ⟨-, hnonce⟩ := (route_cases hroute).keepsAuth
    intro nonce hsome
    exact hmade nonce (hnonce ▸ hsome)
  · obtain ⟨nonce, rfl, hch⟩ := runs_dispatch_of_not_admits hadmits h
    have hbytes : ∃ bytes, nonce = ctx.crates.base64Encode bytes := by
      rcases hch.issued with ⟨hheld, -⟩ | ⟨-, bytes, hnonce, -⟩
      · exact hmade nonce hheld
      · exact ⟨_, hnonce⟩
    obtain ⟨bytes, rfl⟩ := hbytes
    refine ⟨⟨_, presented_challenge (hcrates.encode bytes), rfl⟩, ?_⟩
    rw [hch.nonce_of_session]
    intro nonce hsome
    cases hsome
    exact ⟨bytes, rfl⟩

theorem runs_dispatch_plain {ctx : Context} (hcrates : Base64Texts ctx.crates) {s s' : Session}
    {request : Request} {trace : Trace} {response : Response} (hmade : s.NonceMade ctx.crates)
    (hrequest : ∀ header ∈ request.headers, PlainHeader header)
    (h : Runs (ctx.dispatch s request) trace (s', response)) :
    response.Plain ∧ Headers.get response.headers "CSeq" = request.headers.get "CSeq" ∧
      s'.NonceMade ctx.crates := by
  obtain ⟨⟨presented, hpresented, rfl⟩, hmade'⟩ := runs_dispatch_presented hcrates hmade h
  exact ⟨plain_finish hcrates hrequest hpresented, number_finish ctx request hpresented, hmade'⟩

/-! ## A whole connection -/

/-- Why the loop of a connection ends. -/
inductive Ending where
  | closed
  | malformed (error : ReadError)
  | readFailed
  | writeFailed
  deriving DecidableEq

/-- The loop from the bytes it receives to those it sends: read, dispatch, write. The session is
dropped however it ends. -/
inductive Connection (ctx : Context) : Session → Bytes → Trace → Bytes → Ending → Prop where
  | closed {s : Session} {input rest : Bytes} {trace : Trace} {u : Unit} :
    readRequest input = .ok (none, rest) → Runs s.drop trace u →
      Connection ctx s input trace [] .closed
  | malformed {s : Session} {input : Bytes} {error : ReadError} {trace : Trace} {u : Unit} :
    readRequest input = .error error → Runs s.drop trace u →
      Connection ctx s input trace [] (.malformed error)
  | readFailed {s : Session} {input : Bytes} {trace : Trace} {u : Unit} :
    Runs s.drop trace u → Connection ctx s input trace [] .readFailed
  | served {s s' : Session} {input rest out : Bytes} {request : Request} {part trace : Trace}
    {response : Response} {ending : Ending} :
    readRequest input = .ok (some request, rest) →
      Runs (ctx.dispatch s request) part (s', response) →
        Connection ctx s' rest trace out ending →
          Connection ctx s input (part ++ trace) (response.bytes ++ out) ending
  | writeFailed {s s' : Session} {input rest sent : Bytes} {request : Request} {part trace : Trace}
    {response : Response} {u : Unit} :
    readRequest input = .ok (some request, rest) →
      Runs (ctx.dispatch s request) part (s', response) → sent <+: response.bytes →
        sent ≠ response.bytes → Runs s'.drop trace u →
          Connection ctx s input (part ++ trace) sent .writeFailed

/-- What is left when the loop ends: of the input, of the output, and of the replies. -/
def Ending.Leaves (rest unread : Bytes) (unsent : List Response) : Ending → Prop
  | .closed => unsent = [] ∧ unread = [] ∧ ∃ left, readRequest rest = .ok (none, left)
  | .malformed error => unsent = [] ∧ unread = [] ∧ readRequest rest = .error error
  | .readFailed => unsent = [] ∧ unread = []
  | .writeFailed => ∃ response, unsent = [response] ∧ unread <+: response.bytes ∧
      unread ≠ response.bytes

/-- A client that sent `input` and received `out`: the receiver read these requests and answered
each, and all replies but one that broke off are read back under the numbers of the requests. -/
structure Exchanged (ctx : Context) (s : Session) (input : Bytes) (trace : Trace) (out : Bytes)
    (requests : List Request) (sent unsent : List Response) (rest unread : Bytes) : Prop where
  received : times readRequest requests.length input = .ok (requests.map some, rest)
  dispatched : ∃ part s' last u, trace = part ++ last ∧
    Runs (ctx.serve s requests) part (s', sent ++ unsent) ∧ Runs s'.drop last u
  answered : times readResponse sent.length out = .ok (sent, unread)
  numbered : List.Forall₂ (fun request response =>
    Headers.get response.headers "CSeq" = Headers.get request.headers "CSeq") requests
      (sent ++ unsent)

theorem exchanged_nil {ctx : Context} {s : Session} (input : Bytes) {trace : Trace} {u : Unit}
    (h : Runs s.drop trace u) : ctx.Exchanged s input trace [] [] [] [] input [] where
  received := rfl
  dispatched := ⟨[], s, trace, u, rfl, runs_pure.mpr ⟨rfl, rfl⟩, h⟩
  answered := rfl
  numbered := .nil

/-- One request more at the front, answered in full. -/
theorem Exchanged.cons {ctx : Context} {s s' : Session} {input mid rest out unread : Bytes}
    {part trace : Trace} {request : Request} {requests : List Request} {response : Response}
    {sent unsent : List Response} (hread : readRequest input = .ok (some request, mid))
    (hdispatch : Runs (ctx.dispatch s request) part (s', response)) (hplain : response.Plain)
    (hnumber : Headers.get response.headers "CSeq" = Headers.get request.headers "CSeq")
    (h : ctx.Exchanged s' mid trace out requests sent unsent rest unread) :
    ctx.Exchanged s input (part ++ trace) (response.bytes ++ out) (request :: requests)
      (response :: sent) unsent rest unread where
  received := bind_eq_ok.mpr ⟨some request, mid, hread,
    bind_eq_ok.mpr ⟨_, rest, h.received, pure_eq_ok.mpr ⟨rfl, rfl⟩⟩⟩
  dispatched := by
    obtain ⟨part', s'', last, u, rfl, hserve, hdrop⟩ := h.dispatched
    refine ⟨part ++ part', s'', last, u, (List.append_assoc ..).symm, ?_, hdrop⟩
    exact runs_serve_cons.mpr ⟨part, s', response, part', _, rfl, hdispatch, hserve, rfl⟩
  answered := bind_eq_ok.mpr ⟨response, out, hplain.reads out,
    bind_eq_ok.mpr ⟨sent, unread, h.answered, pure_eq_ok.mpr ⟨rfl, rfl⟩⟩⟩
  numbered := .cons hnumber h.numbered

theorem exchanged_connection {ctx : Context} (hcrates : Base64Texts ctx.crates) {s : Session}
    (hmade : s.NonceMade ctx.crates) {input out : Bytes} {trace : Trace} {ending : Ending}
    (h : ctx.Connection s input trace out ending) :
    ∃ requests sent unsent rest unread,
      ctx.Exchanged s input trace out requests sent unsent rest unread ∧
        ending.Leaves rest unread unsent := by
  induction h with
  | closed hread hdrop =>
    exact ⟨_, _, _, _, _, exchanged_nil _ hdrop, rfl, rfl, _, hread⟩
  | malformed hread hdrop =>
    exact ⟨_, _, _, _, _, exchanged_nil _ hdrop, rfl, rfl, hread⟩
  | readFailed hdrop => exact ⟨_, _, _, _, _, exchanged_nil _ hdrop, rfl, rfl⟩
  | served hread hdispatch hrest ih =>
    have haccepted := (readRequest_accepted hread).1
    obtain ⟨hplain, hnumber, hmade'⟩ :=
      runs_dispatch_plain hcrates hmade haccepted.headers_plain hdispatch
    obtain ⟨requests, sent, unsent, rest, unread, hexchanged, hleaves⟩ := ih hmade'
    exact ⟨_, _, _, _, _, .cons hread hdispatch hplain hnumber hexchanged, hleaves⟩
  | @writeFailed s s' input rest sent request part trace response u hread hdispatch hcut hneq
      hdrop =>
    have haccepted := (readRequest_accepted hread).1
    obtain ⟨-, hnumber, -⟩ :=
      runs_dispatch_plain hcrates hmade haccepted.headers_plain hdispatch
    refine ⟨[request], [], [response], rest, sent, ⟨?_, ?_, rfl, .cons hnumber .nil⟩,
      response, rfl, hcut, hneq⟩
    · exact bind_eq_ok.mpr ⟨some request, rest, hread,
        bind_eq_ok.mpr ⟨_, rest, rfl, pure_eq_ok.mpr ⟨rfl, rfl⟩⟩⟩
    · refine ⟨part, s', trace, u, rfl, ?_, hdrop⟩
      exact runs_serve_cons.mpr ⟨part, s', response, [], [], by simp, hdispatch,
        runs_pure.mpr ⟨rfl, rfl⟩, rfl⟩

/-- Whatever bytes a connection receives and however it ends, the client reads back one reply for
each request the receiver read, in order and with its number, whatever text it put there. -/
theorem replies_read_back (ctx : Context) (hcrates : Base64Texts ctx.crates) (observer : Bool)
    (peerIp : IpAddr) (input : Bytes) (trace : Trace) (out : Bytes) (ending : Ending)
    (h : ctx.Connection (.new observer peerIp) input trace out ending) :
    ∃ requests sent unsent rest unread,
      ctx.Exchanged (.new observer peerIp) input trace out requests sent unsent rest unread ∧
        ending.Leaves rest unread unsent := by
  have hfresh : (Session.new observer peerIp).NonceMade ctx.crates := by
    intro nonce hsome
    cases hsome
  exact exchanged_connection hcrates hfresh h

/-! ## A client that makes a mistake -/

/-- A number with a carriage return in it. -/
def optionsText : Bytes := utf8 "OPTIONS * RTSP/1.0\nCSeq: 3\rx\n\n"

def optionsNumbered : Request := ⟨"OPTIONS", "*", [("CSeq", "3\rx")], []⟩

/-- A stream that nothing is said of: the answer is not 200. -/
def announceText : Bytes :=
  utf8 "ANNOUNCE rtsp://10.0.0.1/1 RTSP/1.0\r\nCSeq: 4\r\nContent-Length: 3\r\n\r\nv=0"

def announceNumbered : Request :=
  ⟨"ANNOUNCE", "rtsp://10.0.0.1/1", [("CSeq", "4"), ("Content-Length", "3")], utf8 "v=0"⟩

/-- A header line without a colon. -/
def teardownText : Bytes := utf8 "TEARDOWN * RTSP/1.0\r\nCSeq 5\r\n\r\n"

theorem replies_read_back_malformed :
    ∃ trace out, ∃ requests sent unsent rest unread,
      openContext.Exchanged client (optionsText ++ (announceText ++ teardownText)) trace out
          requests sent unsent rest unread ∧
        (Ending.malformed (.malformedHeaderLine "CSeq 5")).Leaves rest unread unsent := by
  have hcrates : Base64Texts openContext.crates := by
    constructor <;> intro bytes c hc <;> simp [openContext] at hc
  have hoptions : readRequest (optionsText ++ (announceText ++ teardownText)) =
      .ok (some optionsNumbered, announceText ++ teardownText) := by decide +kernel
  have hannounce : readRequest (announceText ++ teardownText) =
      .ok (some announceNumbered, teardownText) := by decide +kernel
  have hteardown : readRequest teardownText = .error (.malformedHeaderLine "CSeq 5") := by
    decide +kernel
  have hfirst := runs_execute obliging (openContext.dispatch client optionsNumbered)
  have hsecond := runs_execute obliging (openContext.dispatch
    ((openContext.dispatch client optionsNumbered).execute obliging).2.1 announceNumbered)
  exact ⟨_, _, replies_read_back openContext hcrates false client.peerIp _ _ _ _
    (.served hoptions hfirst (.served hannounce hsecond
      (.malformed hteardown (runs_execute obliging _))))⟩

end Context

end OpenAirplay
