import OpenAirplay.RequestReader

/-!
# Framing of requests

Requests written back to back are read one by one as they were written: the lines of a
request end where its body starts, and the next request starts where its body ends.
-/

namespace OpenAirplay

open Stream Text

set_option autoImplicit false

/-! ## Requests on the wire -/

inductive LineEnd where
  | crlf
  | lf
  deriving DecidableEq

def LineEnd.text : LineEnd → String
  | .crlf => "\r\n"
  | .lf => "\n"

def lineBytes (line : String) (eol : LineEnd) : Bytes := utf8 (line ++ eol.text)

def Request.line (request : Request) : String :=
  request.method ++ " " ++ request.uri ++ " RTSP/1.0"

def headerLine (header : String × String) : String := header.1 ++ ": " ++ header.2

/-- The header lines and the empty one. -/
def headersBytes : Headers → (Nat → LineEnd) → Bytes
  | [], eol => lineBytes "" (eol 0)
  | header :: headers, eol =>
    lineBytes (headerLine header) (eol 0) ++ headersBytes headers fun n => eol (n + 1)

/-- A request and how each of its lines ends. -/
structure Written where
  request : Request
  eol : Nat → LineEnd

namespace Written

def headBytes (w : Written) : Bytes :=
  lineBytes w.request.line (w.eol 0) ++ headersBytes w.request.headers fun n => w.eol (n + 1)

def bytes (w : Written) : Bytes := w.headBytes ++ w.request.body

end Written

def serialize (ws : List Written) : Bytes := ws.flatMap Written.bytes

structure PlainHeader (header : String × String) : Prop where
  name_trimmed : trim header.1 = header.1
  value_trimmed : trim header.2 = header.2
  name_one_line : '\n' ∉ header.1.toList
  value_one_line : '\n' ∉ header.2.toList
  name_no_colon : ':' ∉ header.1.toList

/-- What a sender keeps to; a body is announced when there is one. -/
structure Request.Plain (request : Request) : Prop where
  method_nonempty : request.method ≠ ""
  method_no_space : ' ' ∉ request.method.toList
  uri_nonempty : request.uri ≠ ""
  uri_no_space : ' ' ∉ request.uri.toList
  few_headers : request.headers.length ≤ maxHeaders
  headers_plain : ∀ header ∈ request.headers, PlainHeader header
  body_small : request.body.length ≤ maxBody
  announced : request.body ≠ [] →
    ∃ len, request.headers.get "Content-Length" = some len ∧
      parseUsize len = some request.body.length

/-- The request line is one line, and no body is announced when there is none. -/
structure Request.WellFormed (request : Request) : Prop extends request.Plain where
  method_one_line : '\n' ∉ request.method.toList
  uri_one_line : '\n' ∉ request.uri.toList
  unannounced : request.body = [] → ∀ len, request.headers.get "Content-Length" = some len →
    parseUsize len = some 0

/-! ## A line -/

theorem lineBytes_eq {line : String} (hnewline : '\n' ∉ line.toList) (eol : LineEnd) :
    ∃ front, lineBytes line eol = front ++ [10] ∧ 10 ∉ front := by
  cases eol with
  | lf =>
    refine ⟨utf8 line, utf8_append _ _, ?_⟩
    intro hmem
    exact hnewline (newline_of_mem_utf8 hmem)
  | crlf =>
    refine ⟨utf8 (line ++ "\r"), ?_, ?_⟩
    · have htext : LineEnd.crlf.text = "\r" ++ "\n" := rfl
      rw [lineBytes, htext, ← String.append_assoc, utf8_append]
      rfl
    · intro hmem
      have hchars := newline_of_mem_utf8 hmem
      rw [String.toList_append, List.mem_append] at hchars
      rcases hchars with hline | hcr
      · exact hnewline hline
      · exact absurd hcr (by decide)

theorem readLine_reads {line : String} (hnewline : '\n' ∉ line.toList)
    (hlast : ∀ c, line.toList.getLast? = some c → isLineEnd c = false) (eol : LineEnd) :
    Reads readLine (lineBytes line eol) (some line) := by
  obtain ⟨front, hbytes, hfront⟩ := lineBytes_eq hnewline eol
  have hthrough : Reads (through 10 : Reading Bytes) (lineBytes line eol) (lineBytes line eol) := by
    rw [hbytes]
    exact Reads.through hfront
  have hnonempty : lineBytes line eol ≠ [] := by
    rw [hbytes]
    simp
  have hends : ∀ c ∈ eol.text.toList, isLineEnd c = true := by
    cases eol <;> simp [LineEnd.text, isLineEnd]
  have htrim : trimEnd isLineEnd (line ++ eol.text).toList = line.toList := by
    rw [String.toList_append, trimEnd_append hends hlast]
  apply hthrough.bind_last
  simp only [if_neg hnonempty]
  simp only [lineBytes, fromUtf8_utf8, htrim, String.ofList_toList]
  exact Reads.pure _

/-! ## The head -/

theorem headerLine_last {header : String × String} (h : PlainHeader header) {c : Char}
    (hc : (headerLine header).toList.getLast? = some c) : isLineEnd c = false := by
  have hnot : ∀ c, isWhitespace c = false → isLineEnd c = false := by
    intro c hc
    by_contra hend
    simp only [isLineEnd, Bool.not_eq_false, Bool.or_eq_true, beq_iff_eq] at hend
    rcases hend with rfl | rfl <;> exact absurd hc (by decide)
  rw [headerLine, String.toList_append] at hc
  cases hvalue : header.2.toList with
  | nil =>
    rw [hvalue, List.append_nil, String.toList_append, List.getLast?_append] at hc
    cases hc
    decide
  | cons d value =>
    have hlast : header.2.toList.getLast? = some c := by
      rw [List.getLast?_append, hvalue] at hc
      rw [hvalue]
      simpa [List.getLast?_cons] using hc
    exact hnot c (getLast_trim h.value_trimmed hlast)

theorem headerLine_reads {header : String × String} (h : PlainHeader header) (eol : LineEnd) :
    Reads readLine (lineBytes (headerLine header) eol) (some (headerLine header)) := by
  apply readLine_reads ?_ (fun c => headerLine_last h)
  simp only [headerLine, String.toList_append, List.mem_append, not_or]
  exact ⟨⟨h.name_one_line, by decide⟩, h.value_one_line⟩

theorem headerLine_split {header : String × String} (h : PlainHeader header) :
    splitOnce (headerLine header) ':' = some (header.1, " " ++ header.2) := by
  apply splitOnce_eq h.name_no_colon
  simp only [headerLine, String.toList_append, List.append_assoc]
  rfl

theorem readHeaders_reads {headers : Headers} (hplain : ∀ header ∈ headers, PlainHeader header)
    {room : Nat} (hroom : headers.length ≤ room) (before : Headers) (eol : Nat → LineEnd) :
    Reads (readHeaders room before) (headersBytes headers eol) (before ++ headers) := by
  induction headers generalizing room before eol with
  | nil =>
    have hempty : Reads readLine (headersBytes [] eol) (some "") :=
      readLine_reads (by simp) (by simp) (eol 0)
    unfold readHeaders
    apply hempty.bind_last
    simp only [if_true, List.append_nil]
    exact Reads.pure before
  | cons header headers ih =>
    have hheader := hplain header List.mem_cons_self
    have hrest := fun other hother => hplain other (List.mem_cons_of_mem _ hother)
    have hnonempty : headerLine header ≠ "" := by
      intro hempty
      have hsplit := headerLine_split hheader
      rw [hempty] at hsplit
      cases hsplit
    cases room with
    | zero => simp at hroom
    | succ room =>
      have hfew : headers.length ≤ room := Nat.le_of_succ_le_succ hroom
      unfold readHeaders
      apply (headerLine_reads hheader (eol 0)).bind
      simp only [if_neg hnonempty, headerLine_split hheader, trim_space, hheader.name_trimmed,
        hheader.value_trimmed]
      have hread := ih hrest hfew (before ++ [header]) fun n => eol (n + 1)
      rwa [List.append_assoc] at hread

namespace Request

variable {request : Request}

theorem line_reads (h : request.WellFormed) (eol : LineEnd) :
    Reads readLine (lineBytes request.line eol) (some request.line) := by
  apply readLine_reads
  · simp only [line, String.toList_append, List.mem_append, not_or]
    exact ⟨⟨⟨h.method_one_line, by decide⟩, h.uri_one_line⟩, by decide⟩
  · intro c hc
    rw [line, String.toList_append, List.getLast?_append] at hc
    cases hc
    decide

theorem requestLine_line (h : request.Plain) :
    requestLine request.line = .ok (request.method, request.uri) := by
  have hmethod : splitOnce request.line ' ' =
      some (request.method, request.uri ++ " RTSP/1.0") := by
    apply splitOnce_eq h.method_no_space
    simp only [line, String.toList_append, List.append_assoc]
    rfl
  have huri : splitOnce (request.uri ++ " RTSP/1.0") ' ' = some (request.uri, "RTSP/1.0") := by
    apply splitOnce_eq h.uri_no_space
    rw [String.toList_append]
    rfl
  have hversion : startsWith "RTSP/1.0" "RTSP/" = true := by decide
  simp only [requestLine, splitN, hmethod, huri, if_neg h.method_nonempty, hversion, if_true]

end Request

namespace Written

variable {w : Written}

/-- The lines of a request end where its body starts. -/
theorem readHead_reads (h : w.request.WellFormed) :
    Reads readHead w.headBytes (some ⟨w.request.method, w.request.uri, w.request.headers⟩) := by
  have hnonempty : w.request.line ≠ "" := by
    intro hempty
    have hline := Request.requestLine_line h.toPlain
    rw [hempty] at hline
    cases hline
  have hheaders := readHeaders_reads h.headers_plain h.few_headers [] fun n => w.eol (n + 1)
  unfold readHead
  apply (Request.line_reads h (w.eol 0)).bind
  simp only [if_neg hnonempty, Request.requestLine_line h.toPlain]
  exact (Reads.lift _).bind (hheaders.bind_last (Reads.pure _))

theorem readBody_reads (h : w.request.WellFormed) :
    Reads (readBody w.request.headers) w.request.body w.request.body := by
  unfold readBody
  cases hlen : w.request.headers.get "Content-Length" with
  | none =>
    have hempty : w.request.body = [] := by
      by_contra hbody
      obtain ⟨len, hget, -⟩ := h.announced hbody
      rw [hlen] at hget
      cases hget
    rw [hempty]
    exact Reads.pure []
  | some len =>
    have hparse : parseUsize len = some w.request.body.length := by
      by_cases hbody : w.request.body = []
      · rw [hbody]
        exact h.unannounced hbody len hlen
      · obtain ⟨len', hget, hparse⟩ := h.announced hbody
        rw [hlen] at hget
        cases hget
        exact hparse
    simp only [hparse, if_neg (Nat.not_lt.mpr h.body_small)]
    exact Reads.exactly _ _

theorem readRequest_reads (h : w.request.WellFormed) :
    Reads readRequest w.bytes (some w.request) := by
  unfold readRequest
  apply (readHead_reads h).bind
  exact (readBody_reads h).bind_last (Reads.pure _)

end Written

/-! ## A whole connection -/

theorem serialize_append (ws vs : List Written) :
    serialize (ws ++ vs) = serialize ws ++ serialize vs := by
  simp only [serialize, List.flatMap_append]

theorem serialize_reads {ws : List Written} (h : ∀ w ∈ ws, w.request.WellFormed) :
    Reads (times readRequest ws.length) (serialize ws) (ws.map fun w => some w.request) :=
  Reads.times fun w hw => Written.readRequest_reads (h w hw)

/-- Every call returns the next request as it was written, its lines end where its body
starts, and the call after the last request finds the end of the stream. -/
theorem requests_read_back (ws : List Written) (h : ∀ w ∈ ws, w.request.WellFormed) :
    times readRequest (ws.length + 1) (serialize ws) =
        .ok ((ws.map fun w => some w.request) ++ [none], []) ∧
      ∀ before w after, ws = before ++ w :: after →
        times readRequest before.length (serialize ws) =
            .ok (before.map fun w => some w.request, serialize (w :: after)) ∧
          readHead (serialize (w :: after)) =
            .ok (some ⟨w.request.method, w.request.uri, w.request.headers⟩,
              w.request.body ++ serialize after) := by
  constructor
  · have hall := serialize_reads h []
    rw [List.append_nil] at hall
    exact times_succ_last hall rfl
  · rintro before w after rfl
    constructor
    · rw [serialize_append]
      apply serialize_reads
      exact fun v hv => h v (List.mem_append_left _ hv)
    · have hw := h w (List.mem_append_right _ List.mem_cons_self)
      have hsplit : serialize (w :: after) =
          w.headBytes ++ (w.request.body ++ serialize after) := by
        simp only [serialize, List.flatMap_cons, Written.bytes, List.append_assoc]
      rw [hsplit]
      exact Written.readHead_reads hw _

/-- The body holds a request of its own. -/
def nested : Written where
  request := ⟨"ANNOUNCE", "*", [("CSeq", "1"), ("content-length", "24")],
    utf8 "\r\n\r\nOPTIONS * RTSP/1.0\r\n"⟩
  eol n := if n = 1 then .lf else .crlf

theorem nested_wellFormed : nested.request.WellFormed where
  method_nonempty := by decide
  method_no_space := by decide
  uri_nonempty := by decide
  uri_no_space := by decide
  few_headers := by decide
  headers_plain := by
    intro header hheader
    simp only [nested, List.mem_cons, List.not_mem_nil, or_false] at hheader
    rcases hheader with rfl | rfl
    · exact ⟨by decide, by decide, by decide, by decide, by decide⟩
    · exact ⟨by decide, by decide, by decide, by decide, by decide⟩
  body_small := by decide
  announced _ := ⟨"24", by decide, by decide⟩
  method_one_line := by decide
  uri_one_line := by decide
  unannounced hempty := by
    have hbody : nested.request.body ≠ [] := by decide
    exact absurd hempty hbody

theorem requests_read_back_nested :
    times readRequest 3 (serialize [nested, nested]) =
        .ok ([some nested.request, some nested.request, none], []) ∧
      ∀ before w after, [nested, nested] = before ++ w :: after →
        times readRequest before.length (serialize [nested, nested]) =
            .ok (before.map fun w => some w.request, serialize (w :: after)) ∧
          readHead (serialize (w :: after)) =
            .ok (some ⟨w.request.method, w.request.uri, w.request.headers⟩,
              w.request.body ++ serialize after) := by
  apply requests_read_back [nested, nested]
  intro w hw
  simp only [List.mem_cons, List.not_mem_nil, or_false, or_self] at hw
  exact hw ▸ nested_wellFormed

def splitUri : Written := ⟨⟨"OPTIONS", "a\nb", [], []⟩, fun _ => .crlf⟩

def unsentBody : Written := ⟨⟨"OPTIONS", "*", [("Content-Length", "5")], []⟩, fun _ => .crlf⟩

/-- A newline in the uri ends the request line there, and a body announced and not sent is
still waited for. -/
theorem plain_not_read_back :
    splitUri.request.Plain ∧
      readRequest (serialize [splitUri]) = .error (.malformedRequestLine "OPTIONS a") ∧
      unsentBody.request.Plain ∧ readRequest (serialize [unsentBody]) = .error .unexpectedEof := by
  refine ⟨⟨by decide, by decide, by decide, by decide, by decide, ?_, by decide, ?_⟩, by decide,
    ⟨by decide, by decide, by decide, by decide, by decide, ?_, by decide, ?_⟩, by decide +kernel⟩
  · intro header hheader
    cases hheader
  · intro hbody
    exact absurd rfl hbody
  · intro header hheader
    cases List.mem_singleton.mp hheader
    exact ⟨by decide, by decide, by decide, by decide, by decide⟩
  · intro hbody
    exact absurd rfl hbody

end OpenAirplay
