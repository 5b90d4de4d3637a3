import OpenAirplay.Encodings
import OpenAirplay.Framing
import OpenAirplay.Lifecycle
import OpenAirplay.Lossy

/-!
# From an announcement to the stream

A sender describes its stream in the body of an ANNOUNCE. Whatever else is in there, and however
the lines end, the stream that a SETUP opens is the one described.
-/

namespace OpenAirplay

open Audio Program Text

set_option autoImplicit false

/-! ## Taking text apart -/

namespace Text

variable {sep : Char → Bool}

theorem splitChars_append {cs rest : List Char} {d : Char} (hcs : ∀ c ∈ cs, sep c = false)
    (hd : sep d = true) : splitChars sep (cs ++ d :: rest) = cs :: splitChars sep rest := by
  induction cs with
  | nil => rw [List.nil_append, splitChars, if_pos hd]
  | cons c cs ih =>
    have hc : ¬sep c = true := by simp [hcs c List.mem_cons_self]
    rw [List.cons_append, splitChars, if_neg hc, ih fun c hc => hcs c (List.mem_cons_of_mem _ hc)]

theorem splitChars_of_notMem {cs : List Char} (hcs : ∀ c ∈ cs, sep c = false) :
    splitChars sep cs = [cs] := by
  induction cs with
  | nil => rfl
  | cons c cs ih =>
    have hc : ¬sep c = true := by simp [hcs c List.mem_cons_self]
    rw [splitChars, if_neg hc, ih fun c hc => hcs c (List.mem_cons_of_mem _ hc)]

/-- The carriage return of a line end. -/
def carriageReturn : LineEnd → List Char
  | .crlf => ['\r']
  | .lf => []

/-- Lines with the end of each. -/
def textOf (written : List (String × LineEnd)) : String :=
  .ofList (written.flatMap fun w => (w.1 ++ w.2.text).toList)

/-- A line that is still the same line when it is read. -/
def OneLine (w : String × LineEnd) : Prop :=
  '\n' ∉ w.1.toList ∧ (w.2 = .lf → w.1.toList.getLast? ≠ some '\r')

instance (w : String × LineEnd) : Decidable (OneLine w) :=
  inferInstanceAs (Decidable (_ ∧ (_ → _)))

theorem toList_written (w : String × LineEnd) :
    (w.1 ++ w.2.text).toList = (w.1.toList ++ carriageReturn w.2) ++ ['\n'] := by
  obtain ⟨line, eol⟩ := w
  have heol : eol.text.toList = carriageReturn eol ++ ['\n'] := by cases eol <;> decide
  rw [String.toList_append, List.append_assoc, heol]

theorem splitChars_written {written : List (String × LineEnd)} (h : ∀ w ∈ written, OneLine w) :
    splitChars (· == '\n') (written.flatMap fun w => (w.1 ++ w.2.text).toList) =
      written.map (fun w => w.1.toList ++ carriageReturn w.2) ++ [[]] := by
  induction written with
  | nil => rfl
  | cons w written ih =>
    have hplain : ∀ c ∈ w.1.toList ++ carriageReturn w.2, (c == '\n') = false := by
      intro c hc
      rw [beq_eq_false_iff_ne]
      rintro rfl
      rcases List.mem_append.mp hc with hc | hc
      · exact (h w List.mem_cons_self).1 hc
      · revert hc
        cases w.2 <;> simp [carriageReturn]
    rw [List.flatMap_cons, toList_written, List.append_assoc, List.singleton_append,
      splitChars_append hplain rfl, ih fun w hw => h w (List.mem_cons_of_mem _ hw), List.map_cons,
      List.cons_append]

theorem stripCarriageReturn_written {w : String × LineEnd} (h : OneLine w) :
    stripCarriageReturn (w.1.toList ++ carriageReturn w.2) = w.1.toList := by
  obtain ⟨line, eol⟩ := w
  cases eol with
  | crlf => simp [stripCarriageReturn, carriageReturn]
  | lf =>
    rw [carriageReturn, List.append_nil, stripCarriageReturn, if_neg (h.2 rfl)]

theorem lines_textOf {written : List (String × LineEnd)} (h : ∀ w ∈ written, OneLine w) :
    lines (textOf written) = written.map Prod.fst := by
  have hparts := splitChars_written h
  have hstrip : (written.map fun w => w.1.toList ++ carriageReturn w.2).map stripCarriageReturn =
      written.map fun w => w.1.toList := by
    rw [List.map_map]
    exact List.map_congr_left fun w hw => stripCarriageReturn_written (h w hw)
  simp only [lines, textOf, String.toList_ofList, hparts, List.dropLast_concat, hstrip]
  simp

/-- Tokens with a space between them. -/
def joined (tokens : List String) : String := .ofList ([' '].intercalate (tokens.map String.toList))

theorem splitChars_joined {tokens : List (List Char)} (hne : tokens ≠ [])
    (h : ∀ t ∈ tokens, ∀ c ∈ t, isWhitespace c = false) :
    splitChars isWhitespace ([' '].intercalate tokens) = tokens := by
  induction tokens with
  | nil => exact absurd rfl hne
  | cons t tokens ih =>
    have ht := h t List.mem_cons_self
    cases tokens with
    | nil => rw [List.intercalate_singleton, splitChars_of_notMem ht]
    | cons t' tokens =>
      rw [List.intercalate_cons_cons, List.append_assoc, List.singleton_append,
        splitChars_append ht rfl,
        ih (List.cons_ne_nil _ _) fun t ht => h t (List.mem_cons_of_mem _ ht)]

theorem splitWhitespace_joined {tokens : List String} (hne : tokens ≠ [])
    (h : ∀ t ∈ tokens, t.toList ≠ [] ∧ ∀ c ∈ t.toList, isWhitespace c = false) :
    splitWhitespace (joined tokens) = tokens := by
  have hsplit : splitChars isWhitespace ([' '].intercalate (tokens.map String.toList)) =
      tokens.map String.toList := by
    apply splitChars_joined (by simpa using hne)
    intro t ht
    obtain ⟨token, htoken, rfl⟩ := List.mem_map.mp ht
    exact (h token htoken).2
  have hfilter : (tokens.map String.toList).filter (fun part => !part.isEmpty) =
      tokens.map String.toList := by
    rw [List.filter_eq_self]
    intro t ht
    obtain ⟨token, htoken, rfl⟩ := List.mem_map.mp ht
    simpa using (h token htoken).1
  rw [splitWhitespace, joined, String.toList_ofList, hsplit, hfilter, List.map_map]
  simp [Function.comp_def]

end Text

/-! ## The attributes -/

def attribute? (line : String) : Option (String × String) :=
  (stripPrefix line "a=").bind fun attr =>
    (splitOnce attr ':').map fun nameValue => (nameValue.1, trim nameValue.2)

theorem attribute?_written {line name value : String}
    (hline : line.toList = 'a' :: '=' :: (name.toList ++ ':' :: value.toList))
    (hname : ':' ∉ name.toList) (hvalue : ∀ c ∈ value.toList, isWhitespace c = false) :
    attribute? line = some (name, value) := by
  have hstrip : stripPrefix line "a=" = some (.ofList (name.toList ++ ':' :: value.toList)) := by
    have hmark : "a=".toList = ['a', '='] := by decide
    rw [stripPrefix, hline, hmark]
    exact if_pos rfl
  have hsplit : splitOnce (.ofList (name.toList ++ ':' :: value.toList)) ':' =
      some (name, value) := splitOnce_eq hname String.toList_ofList
  rw [attribute?, hstrip, Option.bind_some, hsplit, Option.map_some, trim_of_no_whitespace hvalue]

/-- The last attribute of this name counts. -/
def lastAttribute (name : String) (lines : List String) : Option String :=
  (((lines.filterMap attribute?).filter fun attr => attr.1 = name).getLast?).map Prod.snd

namespace Sdp

theorem line_eq (sdp : Sdp) (line : String) : sdp.line line =
    match attribute? line with
    | none => sdp
    | some (name, value) => sdp.attribute name value := by
  unfold Sdp.line attribute?
  cases stripPrefix line "a=" with
  | none => rfl
  | some attr =>
    simp only [Option.bind_some]
    cases splitOnce attr ':' <;> rfl

/-- A field that an attribute of this name sets and no other does. -/
theorem field_foldl {field : Sdp → Option String} {name : String}
    (hfield : ∀ (sdp : Sdp) (n v : String),
      field (sdp.attribute n v) = if n = name then some v else field sdp)
    (lines : List String) (sdp : Sdp) :
    field (lines.foldl Sdp.line sdp) = (lastAttribute name lines).or (field sdp) := by
  induction lines using List.reverseRecOn with
  | nil => rfl
  | append_singleton lines line ih =>
    rw [List.foldl_append, List.foldl_cons, List.foldl_nil, line_eq, lastAttribute,
      List.filterMap_append]
    cases hattr : attribute? line with
    | none =>
      rw [List.filterMap_cons_none hattr, List.filterMap_nil, List.append_nil]
      exact ih
    | some nameValue =>
      obtain ⟨n, v⟩ := nameValue
      rw [List.filterMap_cons_some hattr, List.filterMap_nil, List.filter_append]
      simp only [hfield]
      by_cases hname : n = name
      · simp [hname]
      · rw [if_neg hname, ih, lastAttribute]
        simp [hname]

theorem fmtp_attribute (sdp : Sdp) (n v : String) :
    (sdp.attribute n v).fmtp = if n = "fmtp" then some v else sdp.fmtp := by
  unfold Sdp.attribute
  split <;> simp_all

theorem rsaaeskey_attribute (sdp : Sdp) (n v : String) :
    (sdp.attribute n v).rsaaeskey = if n = "rsaaeskey" then some v else sdp.rsaaeskey := by
  unfold Sdp.attribute
  split <;> simp_all

theorem aesiv_attribute (sdp : Sdp) (n v : String) :
    (sdp.attribute n v).aesiv = if n = "aesiv" then some v else sdp.aesiv := by
  unfold Sdp.attribute
  split <;> simp_all

theorem parse_textOf {written : List (String × LineEnd)} (h : ∀ w ∈ written, OneLine w) :
    (Sdp.parse (textOf written)).fmtp = lastAttribute "fmtp" (written.map Prod.fst) ∧
      (Sdp.parse (textOf written)).rsaaeskey = lastAttribute "rsaaeskey" (written.map Prod.fst) ∧
      (Sdp.parse (textOf written)).aesiv = lastAttribute "aesiv" (written.map Prod.fst) := by
  rw [Sdp.parse, lines_textOf h]
  exact ⟨(field_foldl fmtp_attribute _ _).trans Option.or_none,
    (field_foldl rsaaeskey_attribute _ _).trans Option.or_none,
    (field_foldl aesiv_attribute _ _).trans Option.or_none⟩

end Sdp

/-! ## The format -/

namespace AlacConfig

def ofRaw (raw : Vector U32 12) : AlacConfig :=
  { framesPerPacket := raw[1]
    bitDepth := raw[3].setWidth 8
    channels := raw[7].setWidth 8
    sampleRate := raw[11]
    raw := raw }

def fmtp (raw : Vector U32 12) : String := joined (raw.toList.map fun v => Nat.repr v.toNat)

theorem parseU32_repr (v : U32) : parseU32 (Nat.repr v.toNat) = some v := by
  rw [parseU32, parseUnsigned_repr v.isLt, Option.map_some, BitVec.ofNat_toNat, BitVec.setWidth_eq]

theorem mapM_parseU32 (vs : List U32) :
    (vs.map fun v => Nat.repr v.toNat).mapM parseU32 = some vs := by
  induction vs with
  | nil => rfl
  | cons v vs ih => rw [List.map_cons, List.mapM_cons, parseU32_repr, ih]; rfl

theorem parse_fmtp (raw : Vector U32 12) : parse (fmtp raw) = some (ofRaw raw) := by
  have htokens : splitWhitespace (fmtp raw) = raw.toList.map fun v => Nat.repr v.toNat := by
    apply splitWhitespace_joined
    · intro hnil
      have hlen := congrArg List.length hnil
      simp at hlen
    · intro t ht
      obtain ⟨v, -, rfl⟩ := List.mem_map.mp ht
      exact ⟨repr_ne_empty _, fun c hc => isWhitespace_of_isDigit (isDigit_of_mem_repr hc)⟩
  have hall : (raw.toList.map fun v => Nat.repr v.toNat).take 12 =
      raw.toList.map fun v => Nat.repr v.toNat := by
    apply List.take_of_length_le
    rw [List.length_map, raw.length_toList]
  unfold parse
  rw [htokens, hall, mapM_parseU32]
  exact dif_pos (by simp)

end AlacConfig

/-! ## The announcement -/

/-- What a sender announces: the fields of the format, and a key and an initial vector if it
encrypts. -/
structure Announcement where
  raw : Vector U32 12
  crypto : Option (Rtp.Block × Rtp.Block)

def Announcement.params (a : Announcement) : StreamParams where
  encrypted := a.crypto.isSome
  key := (a.crypto.map Prod.fst).getD (.replicate 16 0)
  iv := (a.crypto.map Prod.snd).getD (.replicate 16 0)
  alac := .ofRaw a.raw

/-- The last attribute of each kind is that of the announcement; the key is sealed for the
receiver. -/
structure Announces (crates : Crates) (wrap : Rtp.Block → Bytes) (a : Announcement)
    (written : List (String × LineEnd)) : Prop where
  one_line : ∀ w ∈ written, OneLine w
  format : lastAttribute "fmtp" (written.map Prod.fst) = some (AlacConfig.fmtp a.raw)
  clear : a.crypto = none → lastAttribute "rsaaeskey" (written.map Prod.fst) = none ∧
    lastAttribute "aesiv" (written.map Prod.fst) = none
  sealed : ∀ key iv, a.crypto = some (key, iv) → ∃ keyText ivText,
    lastAttribute "rsaaeskey" (written.map Prod.fst) = some keyText ∧
      crates.Writes (wrap key) keyText ∧
      lastAttribute "aesiv" (written.map Prod.fst) = some ivText ∧ crates.Writes iv.toList ivText

theorem toBlock_toList (block : Rtp.Block) : Crypto.toBlock block.toList = some block := by
  unfold Crypto.toBlock
  exact dif_pos (by simp)

section Announce

variable {crates : Crates} {wrap : Rtp.Block → Bytes} {a : Announcement}
  {written : List (String × LineEnd)}

theorem decryptStreamKey_sealed (hcodes : Base64Codes crates)
    (hseal : ∀ key, crates.rsaDecrypt (wrap key) = some key.toList) {key iv : Rtp.Block}
    {keyText ivText : String} (hkey : crates.Writes (wrap key) keyText)
    (hiv : crates.Writes iv.toList ivText) :
    decryptStreamKey crates keyText ivText = .ok (key, iv) := by
  simp only [decryptStreamKey, sdpBase64, hcodes.decode hiv, hcodes.decode hkey, toBlock_toList,
    Crypto.decryptAesKey, hseal]

theorem handleAnnounce_announces (hcodes : Base64Codes crates)
    (hseal : ∀ key, crates.rsaDecrypt (wrap key) = some key.toList)
    (ha : Announces crates wrap a written) {request : Request}
    (hbody : request.body = utf8 (textOf written)) (s : Session) :
    s.handleAnnounce crates request = ({ s with params := some a.params }, .ok) := by
  obtain ⟨hformat, hkey, hiv⟩ := Sdp.parse_textOf ha.one_line
  rw [ha.format] at hformat
  simp only [Session.handleAnnounce, hbody, fromUtf8Lossy_utf8, hformat, Option.bind_some,
    AlacConfig.parse_fmtp]
  cases hcrypto : a.crypto with
  | none =>
    obtain ⟨hnokey, hnoiv⟩ := ha.clear hcrypto
    rw [hnokey] at hkey
    rw [hnoiv] at hiv
    simp only [hkey, hiv, Announcement.params, hcrypto]
    rfl
  | some crypto =>
    obtain ⟨key, iv⟩ := crypto
    obtain ⟨keyText, ivText, hkeyText, hsealed, hivText, hwritten⟩ := ha.sealed key iv hcrypto
    rw [hkeyText] at hkey
    rw [hivText] at hiv
    simp only [hkey, hiv, decryptStreamKey_sealed hcodes hseal hsealed hwritten,
      Announcement.params, hcrypto]
    rfl

end Announce

/-! ## The stream -/

/-- One of the things that a stream is opened with. -/
inductive Piece where
  | started (rate : U32) (channels : BitVec 8)
  | sink (rate : U32) (channels : BitVec 8)
  | player (config : AlacConfig)
  | audio (params : StreamParams)

def Op.piece? : Op → Option Piece
  | .act (.send (.sessionStarted rate channels _)) => some (.started rate channels)
  | .ask (.makeSink rate channels) => some (.sink rate channels)
  | .ask (.spawnPlayer config _) => some (.player config)
  | .ask (.spawnAudio params _ _ _) => some (.audio params)
  | _ => none

def pieces (trace : Trace) : List Piece := trace.filterMap fun call => call.1.piece?

def Audio.StreamParams.pieces (params : StreamParams) : List Piece :=
  [.started params.alac.sampleRate params.alac.channels,
    .sink params.alac.sampleRate params.alac.channels, .player params.alac, .audio params]

@[simp] theorem pieces_nil : pieces [] = [] := rfl

@[simp] theorem pieces_append (trace trace' : Trace) :
    pieces (trace ++ trace') = pieces trace ++ pieces trace' := List.filterMap_append

@[simp] theorem pieces_cons (call : Call Op.Res) (trace : Trace) :
    pieces (call :: trace) = call.1.piece?.toList ++ pieces trace := by
  rw [pieces, List.filterMap_cons]
  cases call.1.piece? <;> rfl

theorem pieces_of_every {p : Op → Bool} {trace : Trace} (h : Every p trace)
    (hp : ∀ o, p o → o.piece? = none) : pieces trace = [] :=
  List.filterMap_eq_nil_iff.mpr fun call hcall => hp _ (h call hcall)

theorem Op.piece?_of_isReport (o : Op) (h : o.isReport) : o.piece? = none := by
  cases o with
  | ask query => cases h
  | act effect =>
    cases effect with
    | send event => cases event <;> first | rfl | cases h
    | _ => rfl

theorem Op.piece?_of_isCleanup (o : Op) (h : o.isCleanup) : o.piece? = none := by
  cases o with
  | ask query => cases h
  | act effect => cases effect <;> first | rfl | cases h

theorem pieces_of_cleanup {trace : Trace} (h : Every Op.isCleanup trace) : pieces trace = [] :=
  pieces_of_every h Op.piece?_of_isCleanup

theorem pieces_slotRelease (guard : Bool) : pieces (slotRelease guard) = [] := by
  cases guard <;> rfl

namespace Session

variable {ctx : Context} {s s' : Session} {params : StreamParams} {trace : Trace}

theorem pieces_acquired (s : Session) : pieces s.acquired = [] := by
  unfold acquired
  split <;> rfl

theorem pieces_ending (s : Session) : pieces s.ending = [] := by
  unfold ending
  split <;> rfl

theorem pieces_teardown (h : Runs s.teardown trace s') : pieces trace = [] := by
  obtain ⟨rfl, -⟩ := runs_teardown.mp h
  have haborts := pieces_of_cleanup (cleanup_abort s.tasks)
  simp [haborts, pieces_of_cleanup (cleanup_playerDrop s.player),
    pieces_of_cleanup (cleanup_flushClose s.flushTx), pieces_slotRelease, pieces_ending]

theorem pieces_latched (h : s.LatchesOther) :
    pieces (s.latched.map fun event => did (.send event)) = [] := by
  apply pieces_of_every (p := fun o => o.isReport) _ Op.piece?_of_isReport
  simpa [Op.isReport, LatchesOther] using h

theorem Started.pieces_eq {ip : IpAddr} {ports : Ports} (h : Started s params ip ports trace s')
    (hlatched : s.LatchesOther) : pieces trace = params.pieces := by
  obtain ⟨_, rfl, sink, player, audio, control, timing, controlPort, timingPort, rfl, -⟩ :=
    h.opening
  have hplayer := pieces_of_cleanup (cleanup_playerDrop s.player)
  have hflush := pieces_of_cleanup (cleanup_flushClose s.flushTx)
  simpa [asked, did, Op.piece?, Audio.StreamParams.pieces, pieces_acquired, hplayer, hflush]
    using pieces_latched hlatched

/-- A SETUP that was answered with 200. -/
def setUp (request : Request) (response : Response) : Bool :=
  request.method = "SETUP" ∧ response.status = 200

theorem setUp_of_ne {request : Request} (h : request.method ≠ "SETUP") (response : Response) :
    setUp request response = false := by
  simp [setUp, h]

/-- What one request does with the stream that was announced. -/
structure Keeps (params : StreamParams) (trace : Trace) (s' : Session) (opens : Bool) : Prop where
  params_eq : s'.params = some params
  latches : s'.LatchesOther
  pieces_eq : pieces trace = if opens then params.pieces else []

theorem keeps_setup {request : Request} {localIp : IpAddr} {response : Response}
    (hparams : s.params = some params) (hlatched : s.LatchesOther)
    (hmethod : request.method = "SETUP")
    (h : Runs (s.handleSetup request localIp) trace (s', response)) :
    Keeps params trace s' (setUp request response) := by
  rcases setup_cases h with ⟨hnone, -, -, -⟩ | ⟨-, -, rfl, rfl, hstatus⟩ |
    ⟨-, hstatus, rfl, hwhy⟩ | ⟨params', ports, hsome, -, hstatus, hst⟩
  · rw [hparams] at hnone
    cases hnone
  · exact ⟨hparams, hlatched, by simp [setUp, hstatus, asked, Op.piece?]⟩
  · have hopens : setUp request response = false := by
      simp only [List.mem_cons, not_or] at hstatus
      simp [setUp, hstatus.1]
    refine ⟨hparams, hlatched, ?_⟩
    rw [hopens]
    rcases hwhy with ⟨-, rfl⟩ | ⟨-, rfl⟩ <;> simp [pieces_acquired, asked, Op.piece?]
  · obtain rfl : params' = params := Option.some.inj (hsome.symm.trans hparams)
    have hopens : setUp request response = true := by simp [setUp, hmethod, hstatus]
    have hpieces := hst.pieces_eq hlatched
    obtain ⟨_, _, _, _, _, _, _, _, _, _, rfl⟩ := hst.opening
    refine ⟨hparams, ?_, by simpa [hopens] using hpieces⟩
    simp [LatchesOther, latched]

theorem keeps_route {request : Request} {response : Response} (hparams : s.params = some params)
    (hlatched : s.LatchesOther) (hmethod : request.method ≠ "ANNOUNCE")
    (h : Runs (ctx.route s request) trace (s', response)) :
    Keeps params trace s' (setUp request response) := by
  cases byMethod h with
  | idle hother =>
    rw [setUp_of_ne (fun hsetup => hother (by simp [hsetup]))]
    exact ⟨hparams, hlatched, rfl⟩
  | announced hannounce => exact absurd hannounce hmethod
  | setup hsetup hrun => exact keeps_setup hparams hlatched hsetup hrun
  | teardown hdown hrun =>
    rw [setUp_of_ne (by simp [hdown])]
    refine ⟨?_, ?_, pieces_teardown hrun⟩ <;> obtain ⟨-, rfl⟩ := runs_teardown.mp hrun
    · exact hparams
    · exact hlatched
  | flush hflush hrun =>
    rw [setUp_of_ne (by simp [hflush])]
    exact ⟨hparams, hlatched, pieces_of_every (reports_flush hrun) Op.piece?_of_isReport⟩
  | parameter hset hrun =>
    obtain ⟨hreports, hsame⟩ := runs_setParameter hrun
    rw [setUp_of_ne (by simp [hset])]
    refine ⟨?_, hsame.latched hlatched, pieces_of_every hreports Op.piece?_of_isReport⟩
    rw [hsame.same]
    exact hparams

theorem keeps_dispatch {request : Request} {response : Response} (hparams : s.params = some params)
    (hlatched : s.LatchesOther) (hmethod : request.method ≠ "ANNOUNCE")
    (h : Runs (ctx.dispatch s request) trace (s', response)) :
    Keeps params trace s' (setUp request response) := by
  by_cases hadmits : s.admits ctx request
  · obtain ⟨routed, rfl, hroute⟩ := runs_dispatch_of_admits hadmits h
    have hkeeps := keeps_route (s := { s with authorized := true }) hparams hlatched hmethod hroute
    simpa [setUp] using hkeeps
  · obtain ⟨nonce, rfl, hch⟩ := runs_dispatch_of_not_admits hadmits h
    obtain rfl := hch.nonce_of_session
    refine ⟨hparams, hlatched, ?_⟩
    rcases hch.issued with ⟨-, rfl⟩ | ⟨-, bytes, -, rfl⟩ <;>
      simp [setUp, challenge, asked, Op.piece?]

end Session

/-- How many of these requests were a SETUP that opened a stream. -/
def streamsOpened (requests : List Request) (responses : List Response) : Nat :=
  (requests.zip responses).countP fun answered => Session.setUp answered.1 answered.2

namespace Context

variable {ctx : Context} {s s' : Session} {params : StreamParams} {requests : List Request}
  {responses : List Response} {trace : Trace}

theorem pieces_serve (hparams : s.params = some params) (hlatched : s.LatchesOther)
    (hmethods : ∀ request ∈ requests, request.method ≠ "ANNOUNCE")
    (h : Runs (ctx.serve s requests) trace (s', responses)) :
    s'.params = some params ∧
      pieces trace =
        (List.replicate (streamsOpened requests responses) params.pieces).flatten := by
  induction requests generalizing s trace responses with
  | nil =>
    obtain ⟨rfl, heq⟩ := runs_pure.mp h
    obtain ⟨rfl, rfl⟩ := Prod.mk.inj heq
    exact ⟨hparams, rfl⟩
  | cons request requests ih =>
    obtain ⟨part, s₁, response, rest, responses', rfl, hdispatch, hserve, rfl⟩ :=
      runs_serve_cons.mp h
    have hkeeps := Session.keeps_dispatch hparams hlatched (hmethods _ List.mem_cons_self) hdispatch
    obtain ⟨hparams', hrest⟩ := ih hkeeps.params_eq hkeeps.latches
      (fun r hr => hmethods r (List.mem_cons_of_mem _ hr)) hserve
    refine ⟨hparams', ?_⟩
    rw [pieces_append, hkeeps.pieces_eq, hrest, streamsOpened, streamsOpened, List.zip_cons_cons,
      List.countP_cons]
    cases Session.setUp request response
    · rfl
    · rw [if_pos rfl, if_pos rfl, Nat.add_comm, List.replicate_add]
      rfl

theorem runs_dispatch_announce {wrap : Rtp.Block → Bytes} {a : Announcement}
    {written : List (String × LineEnd)} {announce : Request} {response : Response}
    (hcodes : Base64Codes ctx.crates)
    (hseal : ∀ key, ctx.crates.rsaDecrypt (wrap key) = some key.toList)
    (ha : Announces ctx.crates wrap a written) (hmethod : announce.method = "ANNOUNCE")
    (hbody : announce.body = utf8 (textOf written)) (hadmits : s.admits ctx announce)
    (h : Runs (ctx.dispatch s announce) trace (s', response)) :
    trace = [] ∧ s' = { s with authorized := true, params := some a.params } ∧
      response.status = 200 := by
  obtain ⟨routed, rfl, hroute⟩ := Session.runs_dispatch_of_admits hadmits h
  have hhandled := handleAnnounce_announces hcodes hseal ha hbody { s with authorized := true }
  simp only [Context.route, hmethod, hhandled] at hroute
  obtain ⟨rfl, heq⟩ := runs_pure.mp hroute
  obtain ⟨rfl, rfl⟩ := Prod.mk.inj heq
  exact ⟨rfl, rfl, finish_status ctx announce .ok⟩

/-- Whatever the connection was asked before, an ANNOUNCE that describes a stream is answered with
200 if it passes the password check. From there to the next ANNOUNCE every SETUP that is answered
with 200 opens that stream: its rate, its format, its key, in this order, and nothing else does. -/
theorem opened_as_announced (ctx : Context) (wrap : Rtp.Block → Bytes)
    (hcodes : Base64Codes ctx.crates)
    (hseal : ∀ key, ctx.crates.rsaDecrypt (wrap key) = some key.toList) (a : Announcement)
    (written : List (String × LineEnd)) (ha : Announces ctx.crates wrap a written)
    (announce : Request) (hmethod : announce.method = "ANNOUNCE")
    (hbody : announce.body = utf8 (textOf written)) (observer : Bool) (peerIp : IpAddr)
    (before after : List Request) (hafter : ∀ request ∈ after, request.method ≠ "ANNOUNCE")
    (earlier trace : Trace) (s s' : Session) (answers replies : List Response) (reply : Response)
    (hbefore : Runs (ctx.serve (.new observer peerIp) before) earlier (s, answers))
    (hrun : Runs (ctx.serve s (announce :: after)) trace (s', reply :: replies)) :
    if s.admits ctx announce then
      reply.status = 200 ∧ s'.params = some a.params ∧
        pieces trace = (List.replicate (streamsOpened after replies) a.params.pieces).flatten
    else reply.status = 401 := by
  have hfresh : (Session.new observer peerIp).LatchesOther := by
    simp [Session.LatchesOther, Session.latched, Session.new]
  obtain ⟨hlatched, -⟩ := sessionOpen_serve hfresh hbefore
  obtain ⟨part, s₁, response, rest, responses, rfl, hdispatch, hserve, heq⟩ :=
    runs_serve_cons.mp hrun
  obtain ⟨rfl, rfl⟩ := List.cons.inj heq
  split
  · rename_i hadmits
    obtain ⟨rfl, rfl, hstatus⟩ :=
      runs_dispatch_announce hcodes hseal ha hmethod hbody hadmits hdispatch
    obtain ⟨hparams, hpieces⟩ := pieces_serve
      (s := { s with authorized := true, params := some a.params }) rfl hlatched hafter hserve
    exact ⟨hstatus, hparams, hpieces⟩
  · rename_i hadmits
    obtain ⟨nonce, rfl, -⟩ := Session.runs_dispatch_of_not_admits hadmits hdispatch
    exact finish_status ctx announce (Session.challenge nonce)

end Context

/-! ## A sealed stream -/

/-- The key of the stream under RSA-OAEP with the public half of `airport.pem`. -/
@[irreducible] def sealedKey : Bytes :=
  [0x80, 0xd1, 0x50, 0x24, 0x67, 0x22, 0xda, 0xb7, 0x0a, 0x9a, 0xed, 0xdd, 0xd6, 0xdc, 0x8e, 0x11,
    0x77, 0x27, 0x59, 0x72, 0xc5, 0x46, 0x6f, 0x27, 0x05, 0x07, 0x55, 0x93, 0x3a, 0xd0, 0x3f, 0x9c,
    0xa3, 0x6e, 0x4f, 0x75, 0xa6, 0x69, 0xa4, 0xe9, 0x85, 0xa1, 0x43, 0x54, 0xb6, 0x14, 0xdf, 0x47,
    0x6a, 0x5e, 0xa0, 0x07, 0xad, 0x0f, 0xd9, 0x84, 0xab, 0xf8, 0x98, 0xa4, 0x36, 0x45, 0x0e, 0xf3,
    0x06, 0x38, 0x96, 0x2d, 0x21, 0x7a, 0xd1, 0xad, 0xfd, 0x11, 0x14, 0xc6, 0xfd, 0x36, 0xc5, 0xb7,
    0x51, 0x34, 0x3f, 0x57, 0xff, 0x57, 0x62, 0x5f, 0x49, 0x5b, 0xa4, 0x6f, 0xfb, 0x1c, 0x25, 0xd6,
    0x53, 0x0c, 0xb6, 0xa2, 0x6b, 0x04, 0xc2, 0xa2, 0x3d, 0x9c, 0x0e, 0xe0, 0x75, 0xdc, 0xf6, 0x08,
    0xb4, 0xae, 0x6a, 0x28, 0x77, 0xe6, 0x4d, 0xd4, 0xed, 0x1d, 0xaa, 0xb6, 0x85, 0x48, 0x1a, 0xf1,
    0xec, 0xc6, 0x0a, 0x4d, 0x86, 0x75, 0x3d, 0x1f, 0x8b, 0xef, 0x1f, 0x14, 0x94, 0xf0, 0x2b, 0xeb,
    0xcc, 0xbe, 0xbd, 0xc2, 0x1d, 0x73, 0xfb, 0x62, 0x7f, 0xaf, 0xf4, 0xa4, 0x17, 0x7f, 0x52, 0x06,
    0xce, 0x3f, 0x98, 0xe3, 0x08, 0xef, 0x24, 0x57, 0x33, 0x36, 0x88, 0x14, 0x23, 0x67, 0x89, 0x73,
    0x88, 0x53, 0x93, 0xa7, 0xd0, 0x9d, 0xe5, 0xf9, 0x6f, 0x7a, 0x5a, 0x43, 0x38, 0xc5, 0x22, 0x84,
    0x73, 0x17, 0xac, 0x0a, 0x41, 0x77, 0x7f, 0x13, 0x58, 0x60, 0x30, 0xc3, 0xea, 0x9b, 0x0a, 0x4c,
    0x8c, 0xc1, 0x35, 0xc3, 0x37, 0xa5, 0x56, 0x6a, 0x9f, 0x7f, 0xb3, 0xab, 0x30, 0x00, 0xe3, 0x9f,
    0xf6, 0xeb, 0x2c, 0x51, 0xc8, 0x49, 0xe7, 0xab, 0x79, 0x45, 0x07, 0xa2, 0x96, 0xf7, 0x7a, 0x1e,
    0xa9, 0x2b, 0x6f, 0xb1, 0x6a, 0xd4, 0x67, 0x7b, 0xfd, 0x99, 0x0d, 0xfe, 0x4d, 0x4c, 0x4a, 0xeb]

/-- A sender's seal: OAEP at that key, and none at all for others. -/
def sealKey (key : Rtp.Block) : Bytes := if key = .replicate 16 7 then sealedKey else key.toList

/-- The receiver's key at what such a sender sends. -/
def unsealKey (ciphertext : Bytes) : Option Bytes :=
  if ciphertext = sealedKey then some (.replicate 16 7)
  else if ciphertext.length = 16 then some ciphertext
  else none

theorem unsealKey_sealKey (key : Rtp.Block) : unsealKey (sealKey key) = some key.toList := by
  unfold sealKey
  split
  · rename_i hkey
    rw [hkey, unsealKey, if_pos rfl, Vector.toList_replicate]
  · have hshort : key.toList ≠ sealedKey := by
      intro heq
      have hlong : sealedKey.length = 256 := by decide +kernel
      rw [← heq, key.length_toList] at hlong
      omega
    rw [unsealKey, if_neg hshort, if_pos key.length_toList]

def sealingContext : Context :=
  { openContext with crates := { openContext.crates.withBase64 with rsaDecrypt := unsealKey } }

theorem sealingContext_codes : Base64Codes sealingContext.crates :=
  Crates.codes_withBase64 { openContext.crates with rsaDecrypt := unsealKey }

def sealedStream : Announcement where
  raw := #v[97, 352, 0, 16, 40, 10, 14, 2, 255, 0, 0, 48000]
  crypto := some (.replicate 16 7, .replicate 16 9)

def sealedText : String := sealingContext.crates.base64Encode sealedKey

def sealedLines : List (String × LineEnd) :=
  [("v=0", .crlf), ("a=fmtp:97 352 0 16 40 10 14 2 255 0 0 48000", .crlf),
    ("a=rsaaeskey:" ++ sealedText, .crlf), ("a=aesiv:CQkJCQkJCQkJCQkJCQkJCQ", .lf)]

def sealedRequest : Request := ⟨"ANNOUNCE", "rtsp://192.168.1.10/1", [], utf8 (textOf sealedLines)⟩

theorem sealedText_plain : ∀ c ∈ sealedText.toList, isWhitespace c = false :=
  sealingContext_codes.encode sealedKey

theorem attributes_sealed : (sealedLines.map Prod.fst).filterMap attribute? =
    [("fmtp", "97 352 0 16 40 10 14 2 255 0 0 48000"), ("rsaaeskey", sealedText),
      ("aesiv", "CQkJCQkJCQkJCQkJCQkJCQ")] := by
  have hversion : attribute? "v=0" = none := by decide +kernel
  have hformat : attribute? "a=fmtp:97 352 0 16 40 10 14 2 255 0 0 48000" =
      some ("fmtp", "97 352 0 16 40 10 14 2 255 0 0 48000") := by decide +kernel
  have hkey : attribute? ("a=rsaaeskey:" ++ sealedText) = some ("rsaaeskey", sealedText) := by
    refine attribute?_written ?_ (by decide) sealedText_plain
    rw [String.toList_append]
    rfl
  have hiv : attribute? "a=aesiv:CQkJCQkJCQkJCQkJCQkJCQ" =
      some ("aesiv", "CQkJCQkJCQkJCQkJCQkJCQ") := by decide +kernel
  simp [sealedLines, hversion, hformat, hkey, hiv]

theorem sealedStream_announced :
    Announces sealingContext.crates sealKey sealedStream sealedLines where
  one_line := by
    have hkey : '\n' ∉ ("a=rsaaeskey:" ++ sealedText).toList := by
      rw [String.toList_append, List.mem_append]
      rintro (hname | hvalue)
      · revert hname
        decide
      · exact absurd (sealedText_plain _ hvalue) (by decide)
    simp only [sealedLines, List.forall_mem_cons, List.not_mem_nil, false_implies, implies_true,
      and_true]
    refine ⟨by decide, by decide, ⟨hkey, fun h => by cases h⟩, by decide⟩
  format := by
    rw [lastAttribute, attributes_sealed]
    decide +kernel
  clear h := by cases h
  sealed key iv h := by
    cases h
    refine ⟨sealedText, "CQkJCQkJCQkJCQkJCQkJCQ", ?_, .inr rfl, ?_, .inl (by decide +kernel)⟩
    · rw [lastAttribute, attributes_sealed]
      rfl
    · rw [lastAttribute, attributes_sealed]
      rfl

theorem sealedStream_dispatched : ∃ response,
    Runs (sealingContext.dispatch client sealedRequest) []
      ({ client with authorized := true, params := some sealedStream.params }, response) := by
  obtain ⟨trace, ⟨s, response⟩, hrun⟩ : ∃ trace result,
      Runs (sealingContext.dispatch client sealedRequest) trace result :=
    ⟨_, _, runs_execute obliging _⟩
  obtain ⟨rfl, rfl, -⟩ := Context.runs_dispatch_announce sealingContext_codes unsealKey_sealKey
    sealedStream_announced rfl rfl rfl hrun
  exact ⟨response, hrun⟩

theorem Context.opened_as_announced_sealed : ∃ trace s replies,
    Runs (sealingContext.serve client [sealedRequest, setupRequest, teardownRequest, setupRequest])
        trace (s, replies) ∧
      pieces trace = sealedStream.params.pieces ++ sealedStream.params.pieces := by
  obtain ⟨reply, hdispatch⟩ := sealedStream_dispatched
  have hserve := runs_execute obliging (sealingContext.serve
    { client with authorized := true, params := some sealedStream.params }
    [setupRequest, teardownRequest, setupRequest])
  have hrun := runs_serve_cons.mpr ⟨_, _, _, _, _, rfl, hdispatch, hserve, rfl⟩
  have hopened := opened_as_announced sealingContext sealKey sealingContext_codes unsealKey_sealKey
    sealedStream sealedLines sealedStream_announced sealedRequest rfl rfl false _ [] _
    (by decide) [] _ client _ [] _ reply (runs_pure.mpr ⟨rfl, rfl⟩) hrun
  exact ⟨_, _, _, hrun, hopened.2.2⟩

end OpenAirplay
