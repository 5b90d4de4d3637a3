import OpenAirplay.DrawnArtwork
import OpenAirplay.Lossy
import OpenAirplay.Shared.Base64
import OpenAirplay.Shared.Search

/-!
# Asking the terminal

Which graphics protocol a terminal speaks is asked of it, and where it does not say so read
off the environment. Its answers come in among what is typed meanwhile. They are understood
all the same, what is typed after them is left for the display, and a terminal that nothing
speaks for is never written to.
-/

namespace OpenAirplay.Images

open Text Search

set_option autoImplicit false

/-! ## The environment -/

/-- The lookups are for terminals that do not answer; an empty variable is as good as none. -/
def detect (env : String → Option String) (probe : Option Bool) : Protocol :=
  if probe = some true then .kitty
  else
    let var := fun name => (env name).filter fun v => !v.isEmpty
    let term := (var "TERM").getD ""
    let program := (var "TERM_PROGRAM").getD ""
    if "kitty".toList <:+: term.toList ∨ "ghostty".toList <:+: term.toList ∨
        (var "KITTY_WINDOW_ID").isSome ∨ (var "GHOSTTY_RESOURCES_DIR").isSome ∨
        (var "GHOSTTY_BIN_DIR").isSome ∨ eqIgnoreAsciiCase program "ghostty" ∨
        eqIgnoreAsciiCase program "kitty" ∨ eqIgnoreAsciiCase program "WezTerm" then .kitty
    else if eqIgnoreAsciiCase program "iTerm.app" ∨
        (var "LC_TERMINAL").any (eqIgnoreAsciiCase · "iTerm2") ∨
        (var "KONSOLE_VERSION").isSome then .iTerm2
    else .none

/-! ## The reply -/

/-- The image asked about, which is not the one displayed. -/
def probeId : Nat := 7331

/-- The query, then a request for the device attributes, which every terminal answers. -/
def query (coders : Coders) : Bytes :=
  utf8 s!"\x1b_Gi={probeId},s=1,v=1,a=q,t=d,f=24;" ++ coders.encode [0, 0, 0] ++
    utf8 "\x1b\\\x1b[c"

def esc : Char := '\x1b'

/-- `"\x1b_G"` -/
def graphicsStart : List Char := [esc, '_', 'G']

/-- `"\x1b[?"` -/
def attributesStart : List Char := [esc, '[', '?']

/-- `"\x1b\\"` -/
def stringEnd : List Char := [esc, '\\']

/-- The answer is for our query, and it is `OK`. -/
def supports (answer : List Char) : Bool :=
  decide (s!"i={probeId}".toList <:+: answer) && decide ("OK".toList <:+: answer)

def kittySupported (reply : Bytes) : Bool :=
  ((pieces graphicsStart (chars reply)).drop 1).any supports

/-- `ESC [ ? … c` is the end of what the terminal has to say. -/
def endsWithDeviceAttributes (reply : Bytes) : Bool :=
  if reply.getLast? = some 0x63 then
    (fromLast attributesStart (chars reply)).any fun answer => !decide (stringEnd <:+: answer)
  else false

example : endsWithDeviceAttributes (utf8 "\x1b[?62;22c") = true ∧
    endsWithDeviceAttributes (utf8 "\x1b_Gi=7331;abc\x1b\\") = false := by decide +kernel

/-- The reply out of what arrives in time, and what is not read of it. -/
def readReply : Bytes → Bytes → Bytes × Bytes
  | reply, [] => (reply, [])
  | reply, byte :: rest =>
    if endsWithDeviceAttributes (reply ++ [byte]) then (reply ++ [byte], rest)
    else readReply (reply ++ [byte]) rest

/-- Whether there is a terminal at either end, whether its modes can be set and what is written
to it, and the bytes that can be read before the deadline. -/
structure Tty where
  stdout : Bool
  stdin : Bool
  raw : Bool
  takes : Bytes → Bool
  arriving : Bytes

/-- What is left to be read comes with the answer. -/
def probeKitty (coders : Coders) (tty : Tty) : Option Bool × Bytes :=
  if !tty.stdout || !tty.stdin then (none, tty.arriving)
  else if !tty.raw then (none, tty.arriving)
  else if !tty.takes (query coders) then (none, tty.arriving)
  else
    let (reply, left) := readReply [] tty.arriving
    (if reply.isEmpty then none else some (kittySupported reply), left)

/-- The protocol the display is run with, unless one is forced upon it. -/
def chosenProtocol (coders : Coders) (forced : Option Protocol) (env : String → Option String)
    (tty : Tty) : Protocol × Bytes :=
  match forced with
  | some images => (images, tty.arriving)
  | none =>
    let (probe, left) := probeKitty coders tty
    (detect env probe, left)

/-! ## What terminals say -/

/-- Typed text; no key sends the beginning of an answer. -/
structure Typed where
  bytes : Bytes
  no_graphics : ¬graphicsStart <:+: chars bytes
  no_attributes : ¬attributesStart <:+: chars bytes

/-- An answer of the graphics protocol, and what is typed before the next one. -/
structure Answer where
  body : Bytes
  unescaped : esc ∉ chars body
  typed : Typed

def Answer.bytes (a : Answer) : Bytes :=
  0x1B :: 0x5F :: 0x47 :: (a.body ++ 0x1B :: 0x5C :: a.typed.bytes)

def Answer.Says (needle : String) (a : Answer) : Prop :=
  needle.toList <:+: chars a.body ∨ needle.toList <:+: chars a.typed.bytes

instance (needle : String) (a : Answer) : Decidable (a.Says needle) :=
  inferInstanceAs (Decidable (_ ∨ _))

/-- What is read of a terminal from the query to its device attributes. -/
structure Talk where
  typed : Typed
  answers : List Answer
  attributes : Bytes
  parameters : ∀ b ∈ attributes, 0x30 ≤ b ∧ b ≤ 0x3F

namespace Talk

def answered (talk : Talk) : Bytes := talk.typed.bytes ++ talk.answers.flatMap Answer.bytes

def bytes (talk : Talk) : Bytes :=
  talk.answered ++ 0x1B :: 0x5B :: 0x3F :: (talk.attributes ++ [0x63])

def Supports (talk : Talk) : Prop :=
  ∃ a ∈ talk.answers, a.Says s!"i={probeId}" ∧ a.Says "OK"

instance (talk : Talk) : Decidable talk.Supports :=
  inferInstanceAs (Decidable (∃ a ∈ talk.answers, _))

end Talk

/-! ## The text of it -/

def Answer.text (a : Answer) : List Char := chars a.body ++ esc :: '\\' :: chars a.typed.bytes

theorem escape_ascii : (0x1B : UInt8) < 0x80 := by decide

theorem chars_answers (before : Bytes) (answers : List Answer) :
    chars (before ++ answers.flatMap Answer.bytes) =
      chars before ++ (answers.map Answer.text).flatMap (graphicsStart ++ ·) := by
  induction answers generalizing before with
  | nil => simp
  | cons a answers ih =>
    rw [List.flatMap_cons, Answer.bytes, List.cons_append, chars_append before escape_ascii,
      chars_ascii escape_ascii, List.cons_append, chars_ascii (by decide), List.cons_append,
      chars_ascii (by decide), List.append_assoc, List.cons_append,
      chars_append a.body escape_ascii, chars_ascii escape_ascii, List.cons_append, chars_ascii (by decide), ih]
    simp only [List.map_cons, List.flatMap_cons, Answer.text, graphicsStart, List.append_assoc,
      List.cons_append, List.nil_append]
    rfl

theorem Talk.chars_answered (talk : Talk) :
    chars talk.answered = chars talk.typed.bytes ++
      (talk.answers.map Answer.text).flatMap (graphicsStart ++ ·) :=
  chars_answers _ _

/-- The characters of the device attributes are those of a parameter. -/
theorem parameter_of_mem_chars {bytes : Bytes} (h : ∀ b ∈ bytes, 0x30 ≤ b ∧ b ≤ 0x3F) {c : Char}
    (hc : c ∈ chars bytes) : 0x30 ≤ c.toNat ∧ c.toNat ≤ 0x3F := by
  induction bytes with
  | nil => exact absurd hc List.not_mem_nil
  | cons b bytes ih =>
    rw [List.forall_mem_cons] at h
    have hlow : 0x30 ≤ b.toNat := UInt8.le_iff_toNat_le.mp h.1.1
    have hhigh : b.toNat ≤ 0x3F := UInt8.le_iff_toNat_le.mp h.1.2
    have hascii : b < 0x80 := UInt8.lt_iff_toNat_lt.mpr (lt_of_le_of_lt hhigh (by decide))
    rw [chars_ascii hascii, List.mem_cons] at hc
    rcases hc with rfl | hc
    · have hvalid : b.toNat.isValidChar := Or.inl (by omega)
      have hchar : (Char.ofNat b.toNat).toNat = b.toNat := by
        rw [Char.ofNat, dif_pos hvalid]
        rfl
      rw [hchar]
      exact ⟨hlow, hhigh⟩
    · exact ih h.2 hc

/-- The device attributes behind their first character. -/
def Talk.ending (talk : Talk) : List Char := '[' :: '?' :: (chars talk.attributes ++ ['c'])

theorem Talk.chars_bytes (talk : Talk) :
    chars talk.bytes = chars talk.answered ++ esc :: talk.ending := by
  have hlast : chars (talk.attributes ++ [0x63]) = chars talk.attributes ++ ['c'] :=
    (chars_append talk.attributes (b := 0x63) (by decide) []).trans rfl
  rw [Talk.bytes, chars_append _ escape_ascii, chars_ascii escape_ascii, chars_ascii (by decide),
    chars_ascii (by decide), hlast]
  rfl

theorem Talk.notMem_ending (talk : Talk) {c : Char}
    (h : c ≠ '[' ∧ c ≠ 'c' ∧ ¬(0x30 ≤ c.toNat ∧ c.toNat ≤ 0x3F)) : c ∉ talk.ending := by
  obtain ⟨hbracket, hletter, hparameter⟩ := h
  intro hmem
  rw [ending, List.mem_cons, List.mem_cons, List.mem_append, List.mem_singleton] at hmem
  rcases hmem with rfl | rfl | hmem | rfl
  · exact hbracket rfl
  · exact hparameter (by decide)
  · exact hparameter (parameter_of_mem_chars talk.parameters hmem)
  · exact hletter rfl

theorem Talk.esc_notMem_ending (talk : Talk) : esc ∉ talk.ending := talk.notMem_ending (by decide)

/-- The device attributes have no escape but the one they begin with. -/
theorem Talk.not_infix_ending (talk : Talk) {c : Char} {m : List Char} (hc : '[' ≠ c) :
    ¬esc :: c :: m <:+: esc :: talk.ending := by
  rw [List.infix_cons_iff, not_or]
  refine ⟨fun hpre => ?_, not_infix_of_notMem talk.esc_notMem_ending⟩
  have hfirst := (List.cons_prefix_cons.mp hpre).2
  exact hc (List.cons_prefix_cons.mp hfirst).1.symm

/-! ## What is understood of it -/

theorem esc_notMem_graphics : esc ∉ ['_', 'G'] := by decide

theorem esc_notMem_attributes : esc ∉ ['[', '?'] := by decide

/-- No opening but at an escape that its own second character follows. -/
theorem infix_cons_cons_iff {c d : Char} {m q : List Char} (hc : d ≠ c) (hd : d ≠ esc) :
    esc :: c :: m <:+: esc :: d :: q ↔ esc :: c :: m <:+: q := by
  rw [List.infix_cons_iff, List.infix_cons_iff, List.cons_prefix_cons, List.cons_prefix_cons,
    List.cons_prefix_cons]
  have hne : ¬c = d := fun h => hc h.symm
  have hesc : ¬esc = d := fun h => hd h.symm
  simp [hne, hesc]

/-- An answer has no opening in it that is not in what is typed behind it. -/
theorem Answer.not_infix_text (a : Answer) {c : Char} {m : List Char} (hm : esc ∉ c :: m)
    (hc : '\\' ≠ c) (htyped : ¬esc :: c :: m <:+: chars a.typed.bytes) :
    ¬esc :: c :: m <:+: a.text := by
  rw [text, infix_append_first hm, infix_cons_cons_iff hc (by decide), not_or]
  exact ⟨not_infix_of_notMem a.unescaped, htyped⟩

theorem Answer.no_graphics (a : Answer) : ¬graphicsStart <:+: a.text :=
  a.not_infix_text esc_notMem_graphics (by decide) a.typed.no_graphics

theorem Answer.no_attributes (a : Answer) : ¬attributesStart <:+: a.text :=
  a.not_infix_text esc_notMem_attributes (by decide) a.typed.no_attributes

theorem Answer.infix_text_iff (a : Answer) {needle : String}
    (h : needle.toList ≠ [] ∧ esc ∉ needle.toList ∧ '\\' ∉ needle.toList) :
    needle.toList <:+: a.text ↔ a.Says needle := by
  obtain ⟨hne, hesc, hback⟩ := h
  have htyped : needle.toList <:+: '\\' :: chars a.typed.bytes ↔
      needle.toList <:+: chars a.typed.bytes := by
    rw [← List.nil_append ('\\' :: _), infix_append_cons hback, List.infix_nil]
    exact or_iff_right hne
  rw [text, infix_append_cons hesc, htyped]
  rfl

theorem Answer.supports_text (a : Answer) :
    supports a.text = decide (a.Says s!"i={probeId}" ∧ a.Says "OK") := by
  rw [supports, ← Bool.decide_and]
  apply decide_eq_decide.mpr
  exact and_congr (a.infix_text_iff (by decide +kernel)) (a.infix_text_iff (by decide +kernel))

namespace Talk

variable (talk : Talk)

theorem any_supports :
    (talk.answers.map Answer.text).any supports = decide talk.Supports := by
  rw [Bool.eq_iff_iff, List.any_map, List.any_eq_true, decide_eq_true_eq]
  refine exists_congr fun a => and_congr_right fun _ => ?_
  rw [Function.comp_apply, a.supports_text, decide_eq_true_eq]

theorem no_graphics : ∀ part ∈ talk.answers.map Answer.text, ¬graphicsStart <:+: part := by
  intro part hpart
  obtain ⟨a, _, rfl⟩ := List.mem_map.mp hpart
  exact a.no_graphics

theorem kittySupported_answered : kittySupported talk.answered = decide talk.Supports := by
  rw [kittySupported, chars_answered, graphicsStart, pieces_flatMap esc_notMem_graphics
    talk.typed.no_graphics talk.no_graphics, ← any_supports]
  rfl

/-- What is looked for in an answer is not in the device attributes. -/
theorem supports_append (part : List Char) :
    supports (part ++ esc :: talk.ending) = supports part := by
  have habsent : ∀ {needle : List Char} {c : Char}, esc ∉ needle ∧ c ∈ needle →
      c ∉ talk.ending → (needle <:+: part ++ esc :: talk.ending ↔ needle <:+: part) := by
    rintro needle c ⟨hesc, hmem⟩ hending
    rw [infix_append_cons hesc]
    exact or_iff_left fun hocc => hending (hocc.subset hmem)
  have hi : esc ∉ s!"i={probeId}".toList ∧ 'i' ∈ s!"i={probeId}".toList := by decide +kernel
  have hO : esc ∉ "OK".toList ∧ 'O' ∈ "OK".toList := by decide +kernel
  have hid := habsent hi (talk.notMem_ending (by decide))
  have hok := habsent hO (talk.notMem_ending (by decide))
  rw [supports, supports, decide_eq_decide.mpr hid, decide_eq_decide.mpr hok]

theorem kittySupported_bytes : kittySupported talk.bytes = decide talk.Supports := by
  have hending : ¬esc :: ['_', 'G'] <:+: esc :: talk.ending := talk.not_infix_ending (by decide)
  rw [kittySupported, chars_bytes, chars_answered, graphicsStart,
    any_pieces_append esc_notMem_graphics talk.typed.no_graphics talk.no_graphics hending
      talk.supports_append, any_supports]

end Talk

/-! ## Where it ends -/

theorem readReply_append {reply xs : Bytes}
    (h : ∀ ys, ys ≠ [] → ys <+: xs → endsWithDeviceAttributes (reply ++ ys) = false)
    (rest : Bytes) : readReply reply (xs ++ rest) = readReply (reply ++ xs) rest := by
  induction xs generalizing reply with
  | nil => rw [List.nil_append, List.append_nil]
  | cons x xs ih =>
    have hfirst : ¬endsWithDeviceAttributes (reply ++ [x]) = true := by
      rw [h [x] (List.cons_ne_nil _ _) ⟨xs, rfl⟩]
      exact Bool.false_ne_true
    rw [List.cons_append, readReply, if_neg hfirst, ih, List.append_assoc, List.singleton_append]
    intro ys _ hys
    rw [List.append_assoc, List.singleton_append]
    exact h _ (List.cons_ne_nil _ _) (List.cons_prefix_cons.mpr ⟨rfl, hys⟩)

theorem endsWithDeviceAttributes_of_getLast {reply : Bytes} (h : reply.getLast? ≠ some 0x63) :
    endsWithDeviceAttributes reply = false := if_neg h

/-- A letter `c` in what holds no device attributes does not end them. -/
theorem endsWithDeviceAttributes_of_isPrefix {xs ys : Bytes}
    (h : ¬attributesStart <:+: chars xs) (hpre : ys <+: xs) :
    endsWithDeviceAttributes ys = false := by
  by_cases hlast : ys.getLast? = some 0x63
  · obtain ⟨zs, rfl⟩ := List.getLast?_eq_some_iff.mp hlast
    obtain ⟨more, rfl⟩ := hpre
    have hascii : (0x63 : UInt8) < 0x80 := by decide
    rw [List.append_assoc, List.singleton_append, chars_append zs hascii, chars_ascii hascii] at h
    have hno : ¬attributesStart <:+: chars (zs ++ [0x63]) := by
      rw [chars_append zs hascii, chars_ascii hascii, chars_nil]
      exact fun hocc => h (hocc.trans ⟨[], chars more, by simp⟩)
    rw [endsWithDeviceAttributes, fromLast_of_not_infix hno]
    exact ite_self _
  · exact endsWithDeviceAttributes_of_getLast hlast

/-- No key and no answer begins the device attributes. -/
theorem not_infix_answers {before : List Char} (h : ¬attributesStart <:+: before)
    (answers : List Answer) :
    ¬attributesStart <:+: before ++ (answers.map Answer.text).flatMap (graphicsStart ++ ·) := by
  induction answers generalizing before with
  | nil => simpa using h
  | cons a answers ih =>
    have hrest := ih a.no_attributes
    simp only [List.map_cons, List.flatMap_cons, graphicsStart, List.cons_append,
      List.nil_append] at hrest ⊢
    rw [attributesStart, infix_append_first esc_notMem_attributes, not_or,
      infix_cons_cons_iff (by decide) (by decide)]
    refine ⟨h, fun hocc => hrest ?_⟩
    rw [List.infix_cons_iff] at hocc
    exact hocc.resolve_left fun hpre => absurd (List.cons_prefix_cons.mp hpre).1 (by decide)

namespace Talk

variable (talk : Talk)

theorem no_attributes : ¬attributesStart <:+: chars talk.answered := by
  rw [chars_answered]
  exact not_infix_answers talk.typed.no_attributes talk.answers

theorem readReply_answered (rest : Bytes) :
    readReply [] (talk.answered ++ rest) = readReply talk.answered rest := by
  have hquiet : ∀ ys, ys ≠ [] → ys <+: talk.answered →
      endsWithDeviceAttributes ([] ++ ys) = false :=
    fun _ _ hpre => endsWithDeviceAttributes_of_isPrefix talk.no_attributes hpre
  exact readReply_append hquiet rest

/-- The last `c` is where the device attributes end. -/
theorem ends : endsWithDeviceAttributes talk.bytes = true := by
  have hlast : talk.bytes.getLast? = some 0x63 := by
    rw [bytes, ← List.cons_append, ← List.cons_append, ← List.cons_append, ← List.append_assoc,
      List.getLast?_concat]
  have hesc : esc ∉ chars talk.attributes ++ ['c'] := fun h =>
    talk.esc_notMem_ending (List.mem_cons_of_mem _ (List.mem_cons_of_mem _ h))
  have hstart : fromLast attributesStart (chars talk.bytes) = some (esc :: talk.ending) := by
    rw [chars_bytes]
    exact fromLast_append esc_notMem_attributes hesc
  have hstring : ¬stringEnd <:+: esc :: talk.ending := talk.not_infix_ending (by decide)
  rw [endsWithDeviceAttributes, if_pos hlast, hstart, Option.any_some, decide_eq_false hstring]
  rfl

theorem readReply_bytes (later : Bytes) :
    readReply [] (talk.bytes ++ later) = (talk.bytes, later) := by
  have hopening : ∀ ys, ys ≠ [] → ys <+: 0x1B :: 0x5B :: 0x3F :: talk.attributes →
      endsWithDeviceAttributes (talk.answered ++ ys) = false := by
    intro ys hne hpre
    apply endsWithDeviceAttributes_of_getLast
    rw [List.getLast?_append_of_ne_nil _ hne]
    intro hlast
    have hmem := hpre.subset (List.mem_of_getLast? hlast)
    simp only [List.mem_cons] at hmem
    rcases hmem with h | h | h | h
    · exact absurd h (by decide)
    · exact absurd h (by decide)
    · exact absurd h (by decide)
    · exact absurd (talk.parameters _ h).2 (by decide)
  have hbytes :
      talk.answered ++ 0x1B :: 0x5B :: 0x3F :: talk.attributes ++ [0x63] = talk.bytes := by
    simp [bytes]
  have hend := talk.ends
  rw [← hbytes] at hend
  calc readReply [] (talk.bytes ++ later)
      = readReply []
          (talk.answered ++ (0x1B :: 0x5B :: 0x3F :: talk.attributes ++ 0x63 :: later)) := by
        simp [bytes]
    _ = readReply (talk.answered ++ 0x1B :: 0x5B :: 0x3F :: talk.attributes) (0x63 :: later) := by
        rw [readReply_answered, readReply_append hopening]
    _ = (talk.bytes, later) := by rw [readReply, if_pos hend, hbytes]

end Talk

/-! ## The display -/

/-- The query is asked. -/
def Tty.Asked (coders : Coders) (tty : Tty) : Prop :=
  tty.stdout = true ∧ tty.stdin = true ∧ tty.raw = true ∧ tty.takes (query coders) = true

section Display

variable {coders : Coders} {tty : Tty} {talk : Talk} {later : Bytes}

theorem probeKitty_of_asked (h : tty.Asked coders) {reply left : Bytes}
    (hread : readReply [] tty.arriving = (reply, left)) :
    probeKitty coders tty =
      (if reply.isEmpty then none else some (kittySupported reply), left) := by
  obtain ⟨hout, hin, hraw, htakes⟩ := h
  simp only [probeKitty, hout, hin, hraw, htakes, hread, Bool.not_true, Bool.or_false,
    Bool.false_eq_true, if_false]

/-- What a negative answer leaves to the environment is what no answer would. -/
theorem detect_answer (env : String → Option String) (supported : Prop) [Decidable supported] :
    detect env (some (decide supported)) = if supported then .kitty else detect env none := by
  by_cases h : supported
  · rw [if_pos h, decide_eq_true h]
    rfl
  · rw [if_neg h, decide_eq_false h]
    rfl

/-- A reply of no bytes is one without an answer. -/
theorem detect_reply (env : String → Option String) {reply : Bytes}
    (h : kittySupported reply = decide talk.Supports) (hempty : reply = [] → ¬talk.Supports) :
    detect env (if reply.isEmpty then none else some (kittySupported reply)) =
      if talk.Supports then .kitty else detect env none := by
  by_cases hreply : reply = []
  · rw [if_pos (List.isEmpty_iff.mpr hreply), if_neg (hempty hreply)]
  · rw [if_neg fun h => hreply (List.isEmpty_iff.mp h), h, detect_answer]

theorem Talk.not_supports_of_nil (h : talk.answered = []) : ¬talk.Supports := by
  rintro ⟨a, ha, -⟩
  have hflat := List.flatMap_eq_nil_iff.mp (List.append_eq_nil_iff.mp h).2 a ha
  exact List.cons_ne_nil _ _ hflat

theorem Talk.bytes_ne_nil : talk.bytes ≠ [] := fun h =>
  List.cons_ne_nil _ _ (List.append_eq_nil_iff.mp h).2

/-- Without a protocol nothing is drawn and nothing cleared. -/
theorem writes_nothing {setup : Tui.Setup} (h : setup.images = .none) {s : Tui.Screen}
    {drawn : Option Tui.DrawnArtwork} {turns : List Tui.Turn} :
    ∀ r ∈ (Tui.eventLoop setup s drawn turns).1, r.written = [] := by
  induction turns generalizing s drawn with
  | nil => exact fun r hr => absurd hr List.not_mem_nil
  | cons turn turns ih =>
    have hredraw : ∀ artwork area, Tui.drawArtwork setup.coders setup.images artwork area drawn
        turn.io = ⟨Tui.wantedArtwork artwork area, false, [], drawn, false⟩ := by
      intro artwork area
      rw [h]
      rfl
    intro r hr
    rw [Tui.eventLoop] at hr
    cases hframe : turn.frame with
    | none =>
      rw [hframe] at hr
      exact absurd hr List.not_mem_nil
    | some frame =>
      rw [hframe] at hr
      dsimp only at hr
      rw [hredraw, if_neg Bool.false_ne_true] at hr
      cases hwake : Tui.wakeUp setup.decode s turn.wake with
      | error exit =>
        rw [hwake] at hr
        rw [List.mem_singleton.mp hr]
      | ok s' =>
        rw [hwake] at hr
        rcases List.mem_cons.mp hr with rfl | hr
        · rfl
        · exact ih r hr

/-- Kitty's protocol is taken up when an answer to our query is `OK`, and otherwise what the
environment says, whatever is typed meanwhile, and also where the wait is over before the device
attributes begin. What is typed after them is left for the display. Where nothing speaks for the
terminal, the display never writes to it. -/
theorem protocol_as_answered (env : String → Option String) (hasked : tty.Asked coders)
    (harriving : tty.arriving = talk.answered ∧ later = [] ∨ tty.arriving = talk.bytes ++ later) :
    chosenProtocol coders none env tty =
        (if talk.Supports then .kitty else detect env none, later) ∧
      (¬talk.Supports → detect env none = .none →
        ∀ setup : Tui.Setup, setup.images = (chosenProtocol coders none env tty).1 →
          ∀ s drawn turns, ∀ r ∈ (Tui.eventLoop setup s drawn turns).1, r.written = []) := by
  have hchosen : chosenProtocol coders none env tty =
      (if talk.Supports then .kitty else detect env none, later) := by
    rcases harriving with ⟨harriving, rfl⟩ | harriving
    · have hread : readReply [] tty.arriving = (talk.answered, []) := by
        rw [harriving, ← List.append_nil talk.answered, talk.readReply_answered, readReply]
        simp
      rw [chosenProtocol, probeKitty_of_asked hasked hread]
      exact congrArg (·, [])
        (detect_reply env talk.kittySupported_answered Talk.not_supports_of_nil)
    · have hread : readReply [] tty.arriving = (talk.bytes, later) := by
        rw [harriving, talk.readReply_bytes]
      rw [chosenProtocol, probeKitty_of_asked hasked hread]
      exact congrArg (·, later) (detect_reply env talk.kittySupported_bytes
        fun h => absurd h Talk.bytes_ne_nil)
  refine ⟨hchosen, fun hno hdetect setup hsetup s drawn turns => writes_nothing ?_⟩
  rw [hsetup, hchosen, if_neg hno, hdetect]

end Display

/-- `q` is typed before the answer, `x` behind it. -/
def refusal : Talk where
  typed := ⟨utf8 "q", by decide +kernel, by decide +kernel⟩
  answers :=
    [⟨utf8 "i=7331;ENOTSUPPORTED", by decide +kernel,
      ⟨utf8 "x", by decide +kernel, by decide +kernel⟩⟩]
  attributes := utf8 "62;22"
  parameters := by decide +kernel

def refusingTty : Tty where
  stdout := true
  stdin := true
  raw := true
  takes _ := true
  arriving := refusal.bytes ++ utf8 "r"

def plainCoders : Coders where
  encode := Base64.encode
  jpeg _ := none

def xterm (name : String) : Option String := if name = "TERM" then some "xterm-256color" else none

theorem protocol_as_answered_refused :
    chosenProtocol plainCoders none xterm refusingTty = (.none, utf8 "r") ∧
      ∀ setup : Tui.Setup, setup.images = .none →
        ∀ s drawn turns, ∀ r ∈ (Tui.eventLoop setup s drawn turns).1, r.written = [] := by
  have hasked : refusingTty.Asked plainCoders := ⟨rfl, rfl, rfl, rfl⟩
  have harriving : refusingTty.arriving = refusal.answered ∧ utf8 "r" = [] ∨
      refusingTty.arriving = refusal.bytes ++ utf8 "r" := Or.inr rfl
  have hno : ¬refusal.Supports := by decide +kernel
  have hdetect : detect xterm none = .none := by decide +kernel
  obtain ⟨hchosen, hwrites⟩ := protocol_as_answered xterm hasked harriving
  rw [if_neg hno, hdetect] at hchosen
  rw [hchosen] at hwrites
  exact ⟨hchosen, hwrites hno hdetect⟩

end OpenAirplay.Images
