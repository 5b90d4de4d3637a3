import OpenAirplay.Framing

/-!
# What the reader accepts

A request that was read keeps to the limits of the reader, whatever the stream it came from.
Written down again it is read as the same request, so whoever passes it on cannot change how
it is understood.
-/

namespace OpenAirplay

open Stream Text

set_option autoImplicit false

/-- The body is as long as its header says, and there is none without the header. -/
structure Request.Accepted (request : Request) : Prop where
  method_nonempty : request.method ≠ ""
  method_no_space : ' ' ∉ request.method.toList
  method_one_line : '\n' ∉ request.method.toList
  uri_no_space : ' ' ∉ request.uri.toList
  uri_one_line : '\n' ∉ request.uri.toList
  few_headers : request.headers.length ≤ maxHeaders
  headers_plain : ∀ header ∈ request.headers, PlainHeader header
  unannounced : request.headers.get "Content-Length" = none → request.body = []
  announced : ∀ len, request.headers.get "Content-Length" = some len →
    parseUsize len = some request.body.length ∧ request.body.length ≤ maxBody

/-! ## A line that was read -/

theorem newline_utf8 : String.utf8EncodeChar '\n' = [10] := by decide

/-- A newline in what is left of a line would have ended it. -/
theorem newline_notMem_trimEnd {cs : List Char}
    (h : 10 ∉ (cs.flatMap String.utf8EncodeChar).dropLast) : '\n' ∉ trimEnd isLineEnd cs := by
  intro hmem
  obtain ⟨before, after, hsplit⟩ := List.append_of_mem hmem
  obtain ⟨tail, htail⟩ := trimEnd_isPrefix isLineEnd cs
  have hafter : after ≠ [] := by
    rintro rfl
    have hend : (trimEnd isLineEnd cs).getLast? = some '\n' := by
      rw [hsplit]
      simp
    have hlast : isLineEnd '\n' = false := trimEnd_last hend
    exact absurd hlast (by decide)
  obtain ⟨c, after, rfl⟩ := List.exists_cons_of_ne_nil hafter
  have hencoded : String.utf8EncodeChar c ≠ [] := String.utf8EncodeChar_ne_nil
  apply h
  rw [← htail, hsplit]
  simp only [List.flatMap_append, List.flatMap_cons, newline_utf8, List.append_assoc]
  rw [List.dropLast_append_of_ne_nil (by simp)]
  apply List.mem_append_right
  rw [List.dropLast_append_of_ne_nil (by simp [hencoded])]
  exact List.mem_append_left _ List.mem_cons_self

theorem readLine_ok {input rest : Bytes} {read : Option String}
    (h : readLine input = .ok (read, rest)) :
    rest.length ≤ input.length ∧
      ∀ line, read = some line → '\n' ∉ line.toList ∧ rest.length < input.length := by
  unfold readLine at h
  obtain ⟨bytes, mid, hthrough, h⟩ := bind_eq_ok.mp h
  rw [through_eq_ok] at hthrough
  have hjoin := splitThrough_join 10 input
  have hstop := stop_notMem_dropLast 10 input
  simp only [hthrough] at hjoin hstop
  have hlength : bytes.length + mid.length = input.length := by
    rw [← hjoin, List.length_append]
  by_cases hbytes : bytes = []
  · rw [if_pos hbytes] at h
    obtain ⟨rfl, rfl⟩ := pure_eq_ok.mp h
    exact ⟨by omega, nofun⟩
  · rw [if_neg hbytes] at h
    have hpos := List.length_pos_of_ne_nil hbytes
    cases hs : fromUtf8 bytes with
    | none =>
      simp only [hs] at h
      cases h
    | some s =>
      simp only [hs] at h
      obtain ⟨rfl, rfl⟩ := pure_eq_ok.mp h
      refine ⟨by omega, fun line hline => ?_⟩
      cases hline
      refine ⟨?_, by omega⟩
      rw [String.toList_ofList]
      apply newline_notMem_trimEnd
      rw [← utf8_eq_flatMap, fromUtf8_eq_some hs]
      exact hstop

/-! ## The parts of a line -/

theorem notMem_of_splitOnce {line s t : String} {sep c : Char}
    (h : splitOnce line sep = some (s, t)) (hc : c ∉ line.toList) :
    c ∉ s.toList ∧ c ∉ t.toList := by
  rw [(splitOnce_some h).2, List.mem_append, List.mem_cons] at hc
  exact ⟨fun hs => hc (.inl hs), fun ht => hc (.inr (.inr ht))⟩

theorem requestLine_ok {line method uri : String} (h : requestLine line = .ok (method, uri)) :
    ∃ version rest, splitOnce line ' ' = some (method, rest) ∧
      splitOnce rest ' ' = some (uri, version) ∧ method ≠ "" := by
  unfold requestLine at h
  split at h
  · rename_i method' uri' version hparts
    split at h
    · cases h
    · rename_i hmethod
      split at h
      · cases h
        unfold splitN at hparts
        split at hparts
        · cases hparts
        · rename_i first rest hfirst
          unfold splitN at hparts
          split at hparts
          · cases hparts
          · rename_i second last hsecond
            simp only [splitN, List.cons.injEq, and_true] at hparts
            obtain ⟨rfl, rfl, rfl⟩ := hparts
            exact ⟨last, rest, hfirst, hsecond, hmethod⟩
      · cases h
  · cases h

theorem plainHeader_of_split {line name value : String} (hline : '\n' ∉ line.toList)
    (h : splitOnce line ':' = some (name, value)) : PlainHeader (trim name, trim value) := by
  obtain ⟨hname, hvalue⟩ := notMem_of_splitOnce h hline
  exact ⟨trim_trim name, trim_trim value, fun hc => hname (mem_of_mem_trim hc),
    fun hc => hvalue (mem_of_mem_trim hc), fun hc => (splitOnce_some h).1 (mem_of_mem_trim hc)⟩

/-! ## A request that was read -/

theorem readHeaders_ok {room : Nat} {before headers : Headers} {input rest : Bytes}
    (hbefore : ∀ header ∈ before, PlainHeader header)
    (h : readHeaders room before input = .ok (headers, rest)) :
    (∀ header ∈ headers, PlainHeader header) ∧ headers.length ≤ before.length + room ∧
      rest.length ≤ input.length := by
  induction room generalizing before input with
  | zero =>
    unfold readHeaders at h
    obtain ⟨read, mid, hread, h⟩ := bind_eq_ok.mp h
    obtain ⟨hmid, hlines⟩ := readLine_ok hread
    cases read with
    | none => cases h
    | some line =>
      simp only at h
      split at h
      · obtain ⟨rfl, rfl⟩ := pure_eq_ok.mp h
        exact ⟨hbefore, Nat.le_add_right _ _, hmid⟩
      · cases h
  | succ room ih =>
    unfold readHeaders at h
    obtain ⟨read, mid, hread, h⟩ := bind_eq_ok.mp h
    obtain ⟨hmid, hlines⟩ := readLine_ok hread
    cases read with
    | none => cases h
    | some line =>
      simp only at h
      split at h
      · obtain ⟨rfl, rfl⟩ := pure_eq_ok.mp h
        exact ⟨hbefore, Nat.le_add_right _ _, hmid⟩
      · cases hsplit : splitOnce line ':' with
        | none =>
          simp only [hsplit] at h
          cases h
        | some parts =>
          obtain ⟨name, value⟩ := parts
          simp only [hsplit] at h
          have hheader := plainHeader_of_split (hlines line rfl).1 hsplit
          have hall : ∀ header ∈ before ++ [(trim name, trim value)], PlainHeader header := by
            intro header hmem
            rcases List.mem_append.mp hmem with hmem | hmem
            · exact hbefore header hmem
            · rw [List.mem_singleton.mp hmem]
              exact hheader
          obtain ⟨hplain, hlength, hrest⟩ := ih hall h
          rw [List.length_append, List.length_singleton] at hlength
          exact ⟨hplain, by omega, hrest.trans hmid⟩

theorem readBody_ok {headers : Headers} {input rest body : Bytes}
    (h : readBody headers input = .ok (body, rest)) :
    (headers.get "Content-Length" = none → body = []) ∧
      (∀ len, headers.get "Content-Length" = some len →
        parseUsize len = some body.length ∧ body.length ≤ maxBody) ∧
      rest.length ≤ input.length := by
  unfold readBody at h
  cases hlen : headers.get "Content-Length" with
  | none =>
    simp only [hlen] at h
    obtain ⟨rfl, rfl⟩ := pure_eq_ok.mp h
    exact ⟨fun _ => rfl, nofun, Nat.le_refl _⟩
  | some len =>
    simp only [hlen] at h
    cases hparse : parseUsize len with
    | none =>
      simp only [hparse] at h
      cases h
    | some n =>
      simp only [hparse] at h
      split at h
      · cases h
      · rename_i hsmall
        obtain ⟨rfl, rfl⟩ := exactly_eq_ok.mp h
        refine ⟨nofun, fun len' hlen' => ?_, ?_⟩
        · cases hlen'
          exact ⟨hparse, Nat.le_of_not_lt hsmall⟩
        · rw [List.length_append]
          exact Nat.le_add_left _ _

theorem readRequest_accepted {input rest : Bytes} {request : Request}
    (h : readRequest input = .ok (some request, rest)) :
    request.Accepted ∧ rest.length < input.length := by
  unfold readRequest readHead at h
  obtain ⟨head, afterHead, hhead, h⟩ := bind_eq_ok.mp h
  obtain ⟨read, afterLine, hread, hhead⟩ := bind_eq_ok.mp hhead
  cases read with
  | none =>
    obtain ⟨rfl, rfl⟩ := pure_eq_ok.mp hhead
    obtain ⟨hnone, -⟩ := pure_eq_ok.mp h
    cases hnone
  | some line =>
    obtain ⟨hline, hless⟩ := (readLine_ok hread).2 line rfl
    simp only at hhead
    split at hhead
    · obtain ⟨rfl, rfl⟩ := pure_eq_ok.mp hhead
      obtain ⟨hnone, -⟩ := pure_eq_ok.mp h
      cases hnone
    · obtain ⟨⟨method, uri⟩, afterParts, hparts, hhead⟩ := bind_eq_ok.mp hhead
      obtain ⟨headers, afterHeaders, hheaders, hhead⟩ := bind_eq_ok.mp hhead
      obtain ⟨rfl, rfl⟩ := pure_eq_ok.mp hhead
      obtain ⟨body, afterBody, hbody, h⟩ := bind_eq_ok.mp h
      obtain ⟨hrequest, rfl⟩ := pure_eq_ok.mp h
      cases hrequest
      obtain ⟨hsplit, rfl⟩ := lift_eq_ok.mp hparts
      obtain ⟨version, tail, hmethod, huri, hnonempty⟩ := requestLine_ok hsplit
      obtain ⟨hplain, hfew, hafterHeaders⟩ := readHeaders_ok (by simp) hheaders
      obtain ⟨hunannounced, hannounced, hafterBody⟩ := readBody_ok hbody
      obtain ⟨hmethodLine, htailLine⟩ := notMem_of_splitOnce hmethod hline
      rw [List.length_nil, Nat.zero_add] at hfew
      refine ⟨⟨hnonempty, (splitOnce_some hmethod).1, hmethodLine, (splitOnce_some huri).1,
        (notMem_of_splitOnce huri htailLine).1, hfew, hplain, hunannounced, hannounced⟩, ?_⟩
      omega

/-! ## Reading it again -/

namespace Request.Accepted

variable {request : Request}

theorem line_reads (h : request.Accepted) (eol : LineEnd) :
    Reads readLine (lineBytes request.line eol) (some request.line) := by
  apply readLine_reads
  · simp only [line, String.toList_append, List.mem_append, not_or]
    exact ⟨⟨⟨h.method_one_line, by decide⟩, h.uri_one_line⟩, by decide⟩
  · intro c hc
    rw [line, String.toList_append, List.getLast?_append] at hc
    cases hc
    decide

theorem requestLine_line (h : request.Accepted) :
    requestLine request.line = .ok (request.method, request.uri) := by
  have hmethod : splitOnce request.line ' ' =
      some (request.method, request.uri ++ " RTSP/1.0") := by
    apply splitOnce_eq h.method_no_space
    simp only [line, String.toList_append, List.append_assoc]
    rfl
  have huri : splitOnce (request.uri ++ " RTSP/1.0") ' ' = some (request.uri, "RTSP/1.0") := by
    apply splitOnce_eq h.uri_no_space
    rw [String.toList_append]
    rfl
  have hversion : startsWith "RTSP/1.0" "RTSP/" = true := by decide
  simp only [requestLine, splitN, hmethod, huri, if_neg h.method_nonempty, hversion, if_true]

theorem readBody_reads (h : request.Accepted) :
    Reads (readBody request.headers) request.body request.body := by
  unfold readBody
  cases hlen : request.headers.get "Content-Length" with
  | none =>
    rw [h.unannounced hlen]
    exact Reads.pure []
  | some len =>
    obtain ⟨hparse, hsmall⟩ := h.announced len hlen
    simp only [hparse, if_neg (Nat.not_lt.mpr hsmall)]
    exact Reads.exactly _ _

theorem reads (h : request.Accepted) (eol : Nat → LineEnd) :
    Reads readRequest (Written.mk request eol).bytes (some request) := by
  have hnonempty : request.line ≠ "" := by
    intro hempty
    have hline := h.requestLine_line
    rw [hempty] at hline
    cases hline
  have hheaders := readHeaders_reads h.headers_plain h.few_headers [] fun n => eol (n + 1)
  have hhead : Reads readHead (Written.mk request eol).headBytes
      (some ⟨request.method, request.uri, request.headers⟩) := by
    unfold readHead
    apply (h.line_reads (eol 0)).bind
    simp only [if_neg hnonempty, h.requestLine_line]
    exact (Reads.lift _).bind (hheaders.bind_last (Reads.pure _))
  unfold readRequest
  apply hhead.bind
  exact h.readBody_reads.bind_last (Reads.pure _)

end Request.Accepted

/-- What can be read from some stream is just what keeps to the limits, and each of these is
read back however its lines end and whatever follows it. -/
theorem accepted_read_again (request : Request) :
    ((∃ input rest, readRequest input = .ok (some request, rest)) ↔ request.Accepted) ∧
      (request.Accepted →
        ∀ eol, Reads readRequest (Written.mk request eol).bytes (some request)) := by
  refine ⟨⟨?_, fun h => ?_⟩, fun h eol => h.reads eol⟩
  · rintro ⟨input, rest, hread⟩
    exact (readRequest_accepted hread).1
  · exact ⟨_, [], h.reads (fun _ => .crlf) []⟩

/-- An empty uri is accepted, though no sender would write one. -/
example : readRequest (utf8 "OPTIONS  RTSP/1.0\n\n") = .ok (some ⟨"OPTIONS", "", [], []⟩, []) := by
  decide +kernel

end OpenAirplay
