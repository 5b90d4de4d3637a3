import OpenAirplay.Images
import OpenAirplay.Shared.Base64
import OpenAirplay.Shared.Stream

/-!
# Images on their way to the terminal

What a terminal reads from the escapes of an image, and that the image comes out of them
whole.
-/

namespace OpenAirplay.Images

open Chunks Text

set_option autoImplicit false

/-! ## What a terminal reads -/

/-- A key of a graphics escape is one letter. -/
abbrev Key := UInt8 × Bytes

structure Escape where
  keys : List Key
  data : Bytes
  deriving DecidableEq

inductive Command where
  | cursor (position : Bytes)
  | graphics (escape : Escape)
  deriving DecidableEq

def escByte : UInt8 := 0x1B
def comma : UInt8 := 0x2C
def semicolon : UInt8 := 0x3B
def equals : UInt8 := 0x3D
def letterH : UInt8 := 0x48

def readKey : Bytes → Option Key
  | [] => none
  | [_] => none
  | letter :: sign :: value => if sign = equals then some (letter, value) else none

def readKeys (control : Bytes) : List Key := (control.splitOn comma).filterMap readKey

/-- Up to the next `stop`, which is taken too. -/
def upTo (stop : UInt8) (input : Bytes) : Option (Bytes × Bytes) :=
  let (line, rest) := Stream.splitThrough stop input
  if line.getLast? = some stop then some (line.dropLast, rest) else none

def readCommand (input : Bytes) : Option (Command × Bytes) :=
  match (utf8 "\x1b_G").isPrefixOf? input with
  | some rest => do
    let (control, rest) ← upTo semicolon rest
    let (data, rest) ← upTo escByte rest
    let rest ← (utf8 "\\").isPrefixOf? rest
    some (.graphics ⟨readKeys control, data⟩, rest)
  | none => do
    let rest ← (utf8 "\x1b[").isPrefixOf? input
    let (position, rest) ← upTo letterH rest
    some (.cursor position, rest)

/-- All the commands at the front of the input, and what is left behind them. -/
def readAll (input : Bytes) : List Command × Bytes := Stream.many readCommand input.length input

namespace Escape

def value (e : Escape) (letter : UInt8) : Option Bytes := e.keys.lookup letter

/-- It carries the keys that start a transfer. -/
def Transmits (e : Escape) : Prop := e.value 0x61 = some (utf8 "T")

def More (e : Escape) : Prop := e.value 0x6D = some (utf8 "1")

instance (e : Escape) : Decidable e.Transmits := inferInstanceAs (Decidable (_ = _))

instance (e : Escape) : Decidable e.More := inferInstanceAs (Decidable (_ = _))

end Escape

/-- The images it has been given whole, and the data of a transfer that still lasts. -/
structure Terminal where
  images : List (Option Bytes)
  pending : Option Bytes
  deriving DecidableEq

/-- A new transfer drops one that still lasts. -/
def Terminal.take (decode : Bytes → Option Bytes) (t : Terminal) : Command → Terminal
  | .cursor _ => t
  | .graphics e =>
    let data := if e.Transmits then e.data else t.pending.getD [] ++ e.data
    if e.More then { t with pending := some data }
    else { images := t.images ++ [decode data], pending := none }

/-! ## What is written -/

def writeKey (key : Key) : Bytes := key.1 :: equals :: key.2

def control (keys : List Key) : Bytes := [comma].intercalate (keys.map writeKey)

def Command.bytes : Command → Bytes
  | .cursor position => utf8 "\x1b[" ++ position ++ [letterH]
  | .graphics e =>
    utf8 "\x1b_G" ++ control e.keys ++ semicolon :: (e.data ++ utf8 "\x1b\\")

def Clean (key : Key) : Prop := ∀ b ∈ writeKey key, b ≠ comma ∧ b ≠ semicolon

/-- No byte of a position ends it, none of a key the key or the keys, none of the data the
escape. -/
def Command.Plain : Command → Prop
  | .cursor position => letterH ∉ position
  | .graphics e => e.keys ≠ [] ∧ (∀ key ∈ e.keys, Clean key) ∧ escByte ∉ e.data

theorem upTo_append {stop : UInt8} {line : Bytes} (h : stop ∉ line) (rest : Bytes) :
    upTo stop (line ++ stop :: rest) = some (line, rest) := by
  simp [upTo, Stream.splitThrough_append h]

theorem isPrefixOf?_append (pre rest : Bytes) : pre.isPrefixOf? (pre ++ rest) = some rest := by
  induction pre with
  | nil => simp [List.isPrefixOf?]
  | cons b pre ih => simp [List.isPrefixOf?, ih]

theorem readKeys_control {keys : List Key} (hne : keys ≠ []) (h : ∀ key ∈ keys, Clean key) :
    readKeys (control keys) = keys := by
  have hsplit : (control keys).splitOn comma = keys.map writeKey := by
    apply List.splitOn_intercalate
    · intro field hfield
      obtain ⟨key, hkey, rfl⟩ := List.mem_map.mp hfield
      exact fun hm => (h key hkey comma hm).1 rfl
    · simpa using hne
  rw [readKeys, hsplit, List.filterMap_map]
  have hread : ∀ key : Key, (readKey ∘ writeKey) key = some key := by
    intro key
    simp [readKey, writeKey]
  rw [funext hread, List.filterMap_some]

theorem semicolon_notMem_control {keys : List Key} (h : ∀ key ∈ keys, Clean key) :
    semicolon ∉ control keys := by
  induction keys with
  | nil => simp [control]
  | cons key keys ih =>
    have hkey : semicolon ∉ writeKey key := fun hm => (h key List.mem_cons_self _ hm).2 rfl
    have hkeys := ih fun key hmem => h key (List.mem_cons_of_mem _ hmem)
    cases keys with
    | nil => simpa [control] using hkey
    | cons second keys =>
      simp only [control, List.map_cons] at hkeys ⊢
      rw [List.intercalate_cons_cons, List.mem_append, List.mem_append]
      rintro ((hm | hm) | hm)
      · exact hkey hm
      · exact absurd hm (by decide)
      · exact hkeys hm

/-- A command is read back as it was written, whatever follows. -/
theorem readCommand_bytes {c : Command} (h : c.Plain) (rest : Bytes) :
    readCommand (c.bytes ++ rest) = some (c, rest) := by
  cases c with
  | cursor position =>
    have hbytes : (Command.cursor position).bytes ++ rest =
        utf8 "\x1b[" ++ (position ++ letterH :: rest) := by
      simp only [Command.bytes, List.append_assoc, List.singleton_append]
    have hgraphics : (utf8 "\x1b_G").isPrefixOf? (utf8 "\x1b[" ++ (position ++ letterH :: rest)) =
        none := rfl
    rw [hbytes, readCommand, hgraphics]
    simp only [isPrefixOf?_append, upTo_append h, Option.bind_eq_bind, Option.bind_some]
  | graphics e =>
    obtain ⟨hne, hclean, hdata⟩ := h
    have hend : utf8 "\x1b\\" = escByte :: utf8 "\\" := by decide
    have hbytes : (Command.graphics e).bytes ++ rest = utf8 "\x1b_G" ++ (control e.keys ++
        semicolon :: (e.data ++ escByte :: (utf8 "\\" ++ rest))) := by
      simp only [Command.bytes, hend, List.append_assoc, List.cons_append]
    rw [hbytes, readCommand, isPrefixOf?_append]
    simp only [upTo_append (semicolon_notMem_control hclean), upTo_append hdata,
      isPrefixOf?_append, readKeys_control hne hclean, Option.bind_eq_bind, Option.bind_some]

theorem length_le_length_bytes (cs : List Command) :
    cs.length ≤ (cs.flatMap Command.bytes).length := by
  induction cs with
  | nil => exact le_rfl
  | cons c cs ih =>
    have hpos : 1 ≤ c.bytes.length := by
      cases c with
      | cursor position => simp only [Command.bytes, List.length_append, List.length_cons]; omega
      | graphics e => simp only [Command.bytes, List.length_append, List.length_cons]; omega
    rw [List.flatMap_cons, List.length_append, List.length_cons]
    omega

theorem readAll_bytes {cs : List Command} (h : ∀ c ∈ cs, c.Plain) :
    readAll (cs.flatMap Command.bytes) = (cs, []) := by
  have hend : readCommand [] = none := rfl
  have hread := Stream.many_append (fun c hc => readCommand_bytes (h c hc)) hend
    (length_le_length_bytes cs)
  rw [List.append_nil, List.map_id'] at hread
  exact hread

/-! ## The escapes of one image -/

def flag (more : Bool) : Key := (0x6D, utf8 (if more then "1" else "0"))

def decimal (n : Nat) : Bytes := utf8 (toString n)

/-- The keys that start the transfer of an image of this format. -/
def transmitKeys (format : List Key) (placement : Placement) : List Key :=
  [(0x61, utf8 "T"), (0x69, decimal artworkId)] ++ format ++
    [(0x63, decimal placement.cols.toNat), (0x72, decimal placement.rows.toNat),
      (0x43, utf8 "1"), (0x71, utf8 "2")]

/-- One escape for each chunk, of which the first has these keys. -/
def escapesOf (keys : List Key) : List Bytes → List Escape
  | [] => []
  | piece :: pieces => ⟨keys ++ [flag !pieces.isEmpty], piece⟩ :: escapesOf [] pieces

theorem control_append {keys more : List Key} (hkeys : keys ≠ []) (hmore : more ≠ []) :
    control (keys ++ more) = control keys ++ comma :: control more := by
  induction keys with
  | nil => exact absurd rfl hkeys
  | cons key keys ih =>
    cases keys with
    | nil =>
      have hne : more.map writeKey ≠ [] := by simpa using hmore
      simp [control, List.intercalate_cons_of_ne_nil hne]
    | cons second keys =>
      have hrest := ih (List.cons_ne_nil _ _)
      simp only [control, List.cons_append, List.map_cons, List.intercalate_cons_cons,
        List.append_assoc] at hrest ⊢
      rw [hrest]

theorem utf8_flag (more : Bool) : utf8 (toString (if more then 1 else 0)) = (flag more).2 := by
  cases more <;> decide

section Header

variable {formatKeys : String} {format : List Key} (hne : format ≠ [])
  (hformat : utf8 formatKeys = control format) (placement : Placement)

include hne hformat

theorem header_eq (more : Bool) :
    let cols := placement.cols.toNat
    let rows := placement.rows.toNat
    let digit := if more then 1 else 0
    utf8 s!"\x1b_Ga=T,i={artworkId},{formatKeys},c={cols},r={rows},C=1,q=2,m={digit};" =
      utf8 "\x1b_G" ++ control (transmitKeys format placement ++ [flag more]) ++ [semicolon] := by
  rw [transmitKeys, control_append, control_append, control_append]
  · simp only [utf8_append, List.append_assoc, utf8_flag]
    rw [← hformat]
    simp only [control, List.map_cons, List.map_nil, List.intercalate_cons_cons,
      List.intercalate_singleton, writeKey, List.append_assoc, List.cons_append, List.nil_append]
    rfl
  all_goals simp [hne]

end Header

theorem continue_eq (more : Bool) :
    let digit := if more then 1 else 0
    utf8 s!"\x1b_Gm={digit};" = utf8 "\x1b_G" ++ control [flag more] ++ [semicolon] := by
  cases more <;> decide

/-- What the code writes for these chunks are the escapes of them. -/
theorem escapes_eq {formatKeys : String} {format : List Key} (hne : format ≠ [])
    (hformat : utf8 formatKeys = control format) (placement : Placement) (first : Bool)
    (pieces : List Bytes) :
    escapes formatKeys placement first pieces =
      (escapesOf (if first then transmitKeys format placement else []) pieces).flatMap
        fun e => (Command.graphics e).bytes := by
  induction pieces generalizing first with
  | nil => rfl
  | cons piece pieces ih =>
    have hmore : (if pieces.isEmpty then 0 else 1) = if !pieces.isEmpty then 1 else 0 := by
      cases pieces.isEmpty <;> rfl
    simp only [escapes, escapesOf, hmore, List.flatMap_cons]
    rw [ih false]
    cases first with
    | true =>
      rw [if_pos rfl, header_eq hne hformat]
      simp [Command.bytes]
    | false =>
      rw [if_neg Bool.false_ne_true, continue_eq]
      simp [Command.bytes]

/-! ## Their keys -/

def fileKeys : List Key := [(0x66, utf8 "100")]

def pixelKeys (width height : Nat) : List Key :=
  [(0x66, utf8 "24"), (0x73, decimal width), (0x76, decimal height)]

def IsFormat (format : List Key) : Prop :=
  format = fileKeys ∨ ∃ width height, format = pixelKeys width height

section Keys

variable {coders : Coders} {contentType formatKeys : String} {image payload : Bytes}
  {format keys : List Key}

theorem IsFormat.ne_nil (h : IsFormat format) : format ≠ [] := by
  rcases h with rfl | ⟨width, height, rfl⟩
  · exact List.cons_ne_nil _ _
  · exact List.cons_ne_nil _ _

theorem kittyPayload_format (h : kittyPayload coders contentType image = some (formatKeys, payload)) :
    ∃ format, IsFormat format ∧ utf8 formatKeys = control format := by
  rw [kittyPayload] at h
  by_cases hpng : isPng contentType image = true
  · rw [if_pos hpng] at h
    cases h
    exact ⟨fileKeys, .inl rfl, by decide⟩
  · rw [if_neg hpng] at h
    obtain ⟨rgb, _, hrgb⟩ := Option.bind_eq_some_iff.mp h
    cases hrgb
    refine ⟨pixelKeys rgb.width rgb.height, .inr ⟨_, _, rfl⟩, ?_⟩
    simp only [utf8_append, control, pixelKeys, List.map_cons, List.map_nil,
      List.intercalate_cons_cons, List.intercalate_singleton, writeKey, List.append_assoc,
      List.cons_append, List.nil_append]
    rfl

instance (key : Key) : Decidable (Clean key) :=
  inferInstanceAs (Decidable (∀ b ∈ writeKey key, b ≠ comma ∧ b ≠ semicolon))

theorem clean_decimal {letter : UInt8} (h : letter ≠ comma ∧ letter ≠ semicolon) (n : Nat) :
    Clean (letter, decimal n) := by
  have hsign : equals ≠ comma ∧ equals ≠ semicolon := by decide
  intro b hb
  rcases List.mem_cons.mp hb with rfl | hb
  · exact h
  · rcases List.mem_cons.mp hb with rfl | hb
    · exact hsign
    · obtain ⟨hlow, hhigh⟩ := digit_of_mem_utf8 hb
      constructor
      · rintro rfl
        exact absurd hlow (by decide)
      · rintro rfl
        exact absurd hhigh (by decide)

theorem clean_flag (more : Bool) : Clean (flag more) := by cases more <;> decide +kernel

theorem IsFormat.clean (h : IsFormat format) : ∀ key ∈ format, Clean key := by
  rcases h with rfl | ⟨width, height, rfl⟩
  · decide +kernel
  · simp only [pixelKeys, List.forall_mem_cons, List.not_mem_nil, false_implies, implies_true,
      and_true]
    exact ⟨by decide +kernel, clean_decimal (by decide) _, clean_decimal (by decide) _⟩

theorem clean_transmitKeys (h : IsFormat format) (placement : Placement) :
    ∀ key ∈ transmitKeys format placement, Clean key := by
  intro key hkey
  rw [transmitKeys, List.mem_append, List.mem_append] at hkey
  rcases hkey with (hkey | hkey) | hkey
  · revert key
    simp only [List.forall_mem_cons, List.not_mem_nil, false_implies, implies_true, and_true]
    exact ⟨by decide +kernel, clean_decimal (by decide) _⟩
  · exact h.clean key hkey
  · revert key
    simp only [List.forall_mem_cons, List.not_mem_nil, false_implies, implies_true, and_true]
    exact ⟨clean_decimal (by decide) _, clean_decimal (by decide) _, by decide +kernel,
      by decide +kernel⟩

/-- The keys of every escape are clean when those of the first are. -/
theorem clean_escapesOf (h : ∀ key ∈ keys, Clean key) {pieces : List Bytes} :
    ∀ e ∈ escapesOf keys pieces, e.keys ≠ [] ∧ ∀ key ∈ e.keys, Clean key := by
  induction pieces generalizing keys with
  | nil => simp [escapesOf]
  | cons piece pieces ih =>
    rw [escapesOf, List.forall_mem_cons]
    refine ⟨⟨by simp, ?_⟩, ih (by simp)⟩
    intro key hkey
    rcases List.mem_append.mp hkey with hkey | hkey
    · exact h key hkey
    · rw [List.mem_singleton.mp hkey]
      exact clean_flag _

end Keys

/-! ## What the terminal has in the end -/

section Take

variable {decode : Bytes → Option Bytes} {keys : List Key} {more : Bool} {data : Bytes}

theorem more_iff (h : keys.lookup 0x6D = none) :
    Escape.More ⟨keys ++ [flag more], data⟩ ↔ more = true := by
  simp only [Escape.More, Escape.value, List.lookup_append, h, Option.none_or]
  cases more <;> decide

theorem transmits_iff : Escape.Transmits ⟨keys ++ [flag more], data⟩ ↔
    keys.lookup 0x61 = some (utf8 "T") := by
  have hflag : [flag more].lookup 0x61 = none := rfl
  simp only [Escape.Transmits, Escape.value, List.lookup_append, hflag, Option.or_none]

/-- What is pending before an escape with these keys. -/
def kept (keys : List Key) (t : Terminal) : Bytes :=
  if keys.lookup 0x61 = some (utf8 "T") then [] else t.pending.getD []

theorem take_more (h : keys.lookup 0x6D = none) (t : Terminal) :
    t.take decode (.graphics ⟨keys ++ [flag true], data⟩) =
      { t with pending := some (kept keys t ++ data) } := by
  simp only [Terminal.take, transmits_iff, more_iff h, if_true, kept]
  split <;> rfl

theorem take_last (h : keys.lookup 0x6D = none) (t : Terminal) :
    t.take decode (.graphics ⟨keys ++ [flag false], data⟩) =
      ⟨t.images ++ [decode (kept keys t ++ data)], none⟩ := by
  simp only [Terminal.take, transmits_iff, more_iff h, Bool.false_eq_true, if_false, kept]
  split <;> rfl

/-- The terminal has all the chunks one after the other, and no transfer lasts. -/
theorem foldl_take (h : keys.lookup 0x6D = none) {pieces : List Bytes} (hne : pieces ≠ [])
    (t : Terminal) :
    ((escapesOf keys pieces).map Command.graphics).foldl (Terminal.take decode) t =
      ⟨t.images ++ [decode (kept keys t ++ pieces.flatten)], none⟩ := by
  induction pieces generalizing keys t with
  | nil => exact absurd rfl hne
  | cons piece pieces ih =>
    rw [escapesOf, List.map_cons, List.foldl_cons]
    cases pieces with
    | nil =>
      rw [List.isEmpty_nil, Bool.not_true, take_last h, List.flatten_singleton]
      rfl
    | cons second pieces =>
      rw [List.isEmpty_cons, Bool.not_false, take_more h, ih rfl (List.cons_ne_nil _ _)]
      simp only [kept, List.lookup_nil, reduceCtorEq, if_false, Option.getD_some,
        List.flatten_cons, List.append_assoc]

end Take

/-! ## A whole transfer -/

/-- The text goes over in full chunks but for the last; only the first escape has the keys
that start the transfer, only the last ends it. -/
structure Transfer (keys : List Key) (text : Bytes) (escapes : List Escape) : Prop where
  text : escapes.flatMap Escape.data = text
  sizes : ∀ e ∈ escapes, e.data ≠ [] ∧ e.data.length ≤ chunk
  first : ∃ more, escapes.head?.map Escape.keys = some (keys ++ [flag more])
  rest : ∀ e ∈ escapes.tail, ∃ more, e.keys = [flag more]
  full : ∀ e ∈ escapes.dropLast, e.data.length = chunk ∧ e.keys.getLast? = some (flag true)
  last : ∀ e ∈ escapes.getLast?, e.keys.getLast? = some (flag false)

theorem map_data_escapesOf (keys : List Key) (pieces : List Bytes) :
    (escapesOf keys pieces).map Escape.data = pieces := by
  induction pieces generalizing keys with
  | nil => rfl
  | cons piece pieces ih => rw [escapesOf, List.map_cons, ih]

theorem keys_escapesOf_nil {pieces : List Bytes} :
    ∀ e ∈ escapesOf [] pieces, ∃ more, e.keys = [flag more] := by
  induction pieces with
  | nil => simp [escapesOf]
  | cons piece pieces ih =>
    rw [escapesOf, List.forall_mem_cons]
    exact ⟨⟨_, rfl⟩, ih⟩

/-- The flags: on until the last. -/
theorem flags_escapesOf (keys : List Key) (pieces : List Bytes) :
    (∀ e ∈ (escapesOf keys pieces).dropLast, e.keys.getLast? = some (flag true)) ∧
      ∀ e ∈ (escapesOf keys pieces).getLast?, e.keys.getLast? = some (flag false) := by
  induction pieces generalizing keys with
  | nil => simp [escapesOf]
  | cons piece pieces ih =>
    cases pieces with
    | nil => simp [escapesOf]
    | cons second pieces =>
      obtain ⟨hinit, hlast⟩ := ih []
      rw [escapesOf] at hinit hlast
      rw [escapesOf, escapesOf, List.dropLast_cons_cons, List.getLast?_cons_cons,
        List.forall_mem_cons]
      exact ⟨⟨by simp, hinit⟩, hlast⟩

theorem transfer_escapesOf (keys : List Key) {text : Bytes} (hne : text ≠ []) :
    Transfer keys text (escapesOf keys (chunks chunk text)) := by
  have hpos : 0 < chunk := by decide
  have hdata := map_data_escapesOf keys (chunks chunk text)
  refine ⟨?_, ?_, ?_, ?_, ?_, (flags_escapesOf _ _).2⟩
  · rw [List.flatMap_def, hdata, flatten_chunks hpos]
  · intro e he
    have hmem : e.data ∈ chunks chunk text := hdata ▸ List.mem_map_of_mem he
    exact ⟨ne_nil_of_mem hpos hmem, length_le_of_mem hmem⟩
  · obtain ⟨piece, pieces, hpieces⟩ := List.exists_cons_of_ne_nil (chunks_ne_nil hpos hne)
    rw [hpieces]
    exact ⟨_, rfl⟩
  · cases chunks chunk text with
    | nil => simp [escapesOf]
    | cons piece pieces => exact keys_escapesOf_nil
  · intro e he
    refine ⟨?_, (flags_escapesOf _ _).1 e he⟩
    have hmem : e.data ∈ (chunks chunk text).dropLast := by
      rw [← hdata, ← List.map_dropLast]
      exact List.mem_map_of_mem he
    exact length_of_mem_dropLast hpos hmem

/-! ## What is drawn -/

/-- What the base64 crate promises, for the code and for the terminal that decodes it. -/
structure Standard (encode : Bytes → Bytes) (decode : Bytes → Option Bytes) : Prop where
  decode_encode : ∀ bytes, decode (encode bytes) = some bytes
  length_encode : ∀ bytes, (encode bytes).length = (bytes.length + 2) / 3 * 4
  alphabet : ∀ bytes, ∀ b ∈ encode bytes, b ∈ Base64.alphabet ∨ b = Base64.pad

def position (placement : Placement) : Bytes :=
  decimal placement.row.toNat ++ semicolon :: decimal placement.col.toNat

theorem cursorTo_eq (placement : Placement) :
    cursorTo placement = (Command.cursor (position placement)).bytes := by
  simp only [cursorTo, utf8_append, Command.bytes, position, decimal, List.append_assoc,
    List.cons_append]
  rfl

theorem plain_position (placement : Placement) :
    (Command.cursor (position placement)).Plain := by
  have hdigits : ∀ n, letterH ∉ decimal n := by
    intro n hmem
    exact absurd (digit_of_mem_utf8 hmem).2 (by decide)
  intro hmem
  rcases List.mem_append.mp hmem with hmem | hmem
  · exact hdigits _ hmem
  · rcases List.mem_cons.mp hmem with hmem | hmem
    · exact absurd hmem (by decide)
    · exact hdigits _ hmem

section Standard

variable {encode : Bytes → Bytes} {decode : Bytes → Option Bytes}

theorem Standard.escByte_notMem (h : Standard encode decode) (bytes : Bytes) :
    escByte ∉ encode bytes := by
  intro hmem
  rcases h.alphabet bytes _ hmem with hmem | hmem
  · exact absurd hmem (by decide)
  · exact absurd hmem (by decide)

theorem Standard.ne_nil (h : Standard encode decode) {bytes : Bytes} (hne : bytes ≠ []) :
    encode bytes ≠ [] := by
  have hpos := List.length_pos_of_ne_nil hne
  apply List.ne_nil_of_length_pos
  rw [h.length_encode]
  omega

theorem standard_base64 : Standard Base64.encode Base64.decode :=
  ⟨Base64.decode_encode, Base64.length_encode, fun _ _ => Base64.mem_encode⟩

end Standard

/-- What a format's escapes are read back as. -/
theorem plain_escapesOf {format : List Key} (hformat : IsFormat format) (placement : Placement)
    {text : Bytes} (htext : escByte ∉ text) :
    ∀ c ∈ (escapesOf (transmitKeys format placement) (chunks chunk text)).map Command.graphics,
      c.Plain := by
  intro c hc
  obtain ⟨e, he, rfl⟩ := List.mem_map.mp hc
  obtain ⟨hne, hclean⟩ := clean_escapesOf (clean_transmitKeys hformat placement) e he
  refine ⟨hne, hclean, ?_⟩
  intro hmem
  have hpiece : e.data ∈ chunks chunk text :=
    map_data_escapesOf _ (chunks chunk text) ▸ List.mem_map_of_mem he
  apply htext
  rw [← flatten_chunks (by decide : 0 < chunk) text]
  exact List.mem_flatten_of_mem hpiece hmem

theorem lookup_transmitKeys {format : List Key} (hformat : IsFormat format)
    (placement : Placement) : (transmitKeys format placement).lookup 0x6D = none ∧
      (transmitKeys format placement).lookup 0x61 = some (utf8 "T") := by
  rcases hformat with rfl | ⟨width, height, rfl⟩
  · exact ⟨rfl, rfl⟩
  · exact ⟨rfl, rfl⟩

/-- An image goes over as one transfer behind the move of the cursor, and a terminal that puts
the chunks together has its payload, with nothing left over. -/
theorem kittyDraw_transfers (coders : Coders) (decode : Bytes → Option Bytes)
    (hstandard : Standard coders.encode decode) (contentType formatKeys : String)
    (image payload : Bytes) (placement : Placement)
    (hpayload : kittyPayload coders contentType image = some (formatKeys, payload))
    (hne : payload ≠ []) :
    ∃ escapes : List Escape,
      kittyDraw coders contentType image placement =
          some (cursorTo placement ++ (escapes.map Command.graphics).flatMap Command.bytes) ∧
        Transfer (transmitKeys (readKeys (utf8 formatKeys)) placement) (coders.encode payload)
          escapes ∧
        readAll (cursorTo placement ++ (escapes.map Command.graphics).flatMap Command.bytes) =
          (.cursor (position placement) :: escapes.map Command.graphics, []) ∧
        ∀ t : Terminal, (escapes.map Command.graphics).foldl (Terminal.take decode) t =
          ⟨t.images ++ [some payload], none⟩ := by
  obtain ⟨format, hformat, hcontrol⟩ := kittyPayload_format hpayload
  have htext := hstandard.ne_nil hne
  have hkeys : readKeys (utf8 formatKeys) = format := by
    rw [hcontrol, readKeys_control hformat.ne_nil hformat.clean]
  obtain ⟨hmore, htransmit⟩ := lookup_transmitKeys hformat placement
  rw [hkeys]
  refine ⟨escapesOf (transmitKeys format placement) (chunks chunk (coders.encode payload)),
    ?_, transfer_escapesOf _ htext, ?_, ?_⟩
  · simp only [kittyDraw, hpayload, Option.bind_eq_bind, Option.bind_some]
    rw [escapes_eq hformat.ne_nil hcontrol, if_pos rfl, List.flatMap_map]
  · rw [cursorTo_eq, ← List.flatMap_cons]
    apply readAll_bytes
    rw [List.forall_mem_cons]
    exact ⟨plain_position placement,
      plain_escapesOf hformat placement (hstandard.escByte_notMem payload)⟩
  · intro t
    rw [foldl_take hmore (chunks_ne_nil (by decide) htext), kept, if_pos htransmit, List.nil_append,
      flatten_chunks (by decide), hstandard.decode_encode]

/-- A PNG of more than one chunk. -/
theorem kittyDraw_transfers_png :
    ∃ escapes : List Escape,
      kittyDraw ⟨Base64.encode, fun _ => none⟩ "image/png" (pngMagic ++ List.replicate 8192 0xAB)
          ⟨5, 3, 20, 10⟩ =
        some (cursorTo ⟨5, 3, 20, 10⟩ ++
          (escapes.map Command.graphics).flatMap Command.bytes) ∧
        ∀ t : Terminal, (escapes.map Command.graphics).foldl (Terminal.take Base64.decode) t =
          ⟨t.images ++ [some (pngMagic ++ List.replicate 8192 0xAB)], none⟩ := by
  obtain ⟨escapes, hdraw, _, _, htaken⟩ := kittyDraw_transfers ⟨Base64.encode, fun _ => none⟩
    Base64.decode standard_base64 "image/png" "f=100" (pngMagic ++ List.replicate 8192 0xAB)
    (pngMagic ++ List.replicate 8192 0xAB) ⟨5, 3, 20, 10⟩ (if_pos rfl)
    (List.append_ne_nil_of_left_ne_nil (by decide) _)
  exact ⟨escapes, hdraw, htaken⟩

end OpenAirplay.Images
