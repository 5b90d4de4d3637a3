import OpenAirplay.Shared.Chunks
import OpenAirplay.Text

/-!
# Cover art on terminals that can draw pixels

The escape sequences of the two graphics protocols. The base64 and JPEG crates are
parameters.
-/

namespace OpenAirplay.Images

open Chunks Text

set_option autoImplicit false

inductive Protocol where
  | kitty
  | iTerm2
  | none
  deriving DecidableEq

/-- The image the now-playing artwork lives under. -/
def artworkId : Nat := 7332

def chunk : Nat := 4096

/-- A box in character cells, from 1 as the cursor counts. -/
structure Placement where
  col : U16
  row : U16
  cols : U16
  rows : U16
  deriving DecidableEq

inductive PixelFormat where
  | l8
  | l16
  | rgb24
  | cmyk32
  deriving DecidableEq

/-- What the JPEG decoder gives for one image. -/
structure Jpeg where
  width : U16
  height : U16
  pixelFormat : PixelFormat
  pixels : Bytes
  deriving DecidableEq

/-- Always three bytes per pixel. -/
structure Rgb where
  width : Nat
  height : Nat
  pixels : Bytes
  deriving DecidableEq

structure Coders where
  /-- `STANDARD.encode` -/
  encode : Bytes → Bytes
  /-- Nothing for what the decoder refuses. -/
  jpeg : Bytes → Option Jpeg

def pngMagic : Bytes := [0x89, 0x50, 0x4E, 0x47, 0x0D, 0x0A, 0x1A, 0x0A]

def isPng (contentType : String) (image : Bytes) : Bool :=
  eqIgnoreAsciiCase contentType "image/png" || pngMagic.isPrefixOf image

/-- The top left of the box. -/
def cursorTo (placement : Placement) : Bytes :=
  let row := placement.row.toNat
  let col := placement.col.toNat
  utf8 s!"\x1b[{row};{col}H"

/-- What removes an image again; iTerm2 images go with the cells they are in. -/
def clear : Protocol → Option Bytes
  | .kitty => some (utf8 s!"\x1b_Ga=d,d=I,i={artworkId}\x1b\\")
  | .iTerm2 => none
  | .none => none

/-- The escapes of these chunks, `first` while none is out yet. -/
def escapes (formatKeys : String) (placement : Placement) : Bool → List Bytes → Bytes
  | _, [] => []
  | first, piece :: pieces =>
    -- the iterator is peeked for a chunk behind this one
    let more := if pieces.isEmpty then 0 else 1
    let cols := placement.cols.toNat
    let rows := placement.rows.toNat
    let header :=
      if first then
        s!"\x1b_Ga=T,i={artworkId},{formatKeys},c={cols},r={rows},C=1,q=2,m={more};"
      else s!"\x1b_Gm={more};"
    utf8 header ++ piece ++ utf8 "\x1b\\" ++ escapes formatKeys placement false pieces

section Draw

variable (coders : Coders)

/-- Grayscale is expanded, other formats are given up. -/
def decodeJpeg (image : Bytes) : Option Rgb := do
  let jpeg ← coders.jpeg image
  match jpeg.pixelFormat with
  | .rgb24 => some ⟨jpeg.width.toNat, jpeg.height.toNat, jpeg.pixels⟩
  | .l8 => some ⟨jpeg.width.toNat, jpeg.height.toNat, jpeg.pixels.flatMap fun v => [v, v, v]⟩
  | .l16 => none
  | .cmyk32 => none

/-- PNG goes over as it is, anything else as the pixels of a JPEG. -/
def kittyPayload (contentType : String) (image : Bytes) : Option (String × Bytes) :=
  if isPng contentType image then some ("f=100", image)
  else do
    let rgb ← decodeJpeg coders image
    let width := rgb.width
    let height := rgb.height
    some (s!"f=24,s={width},v={height}", rgb.pixels)

def kittyDraw (contentType : String) (image : Bytes) (placement : Placement) : Option Bytes := do
  let (formatKeys, payload) ← kittyPayload coders contentType image
  some (cursorTo placement ++
    escapes formatKeys placement true (chunks chunk (coders.encode payload)))

/-- The file as it is, whatever its format. -/
def iterm2Draw (image : Bytes) (placement : Placement) : Bytes :=
  let size := image.length
  let cols := placement.cols.toNat
  let rows := placement.rows.toNat
  cursorTo placement ++
    utf8 (s!"\x1b]1337;File=inline=1;size={size};width={cols};height={rows};" ++
      "preserveAspectRatio=1;doNotMoveCursor=1:") ++
    coders.encode image ++ [0x07]

/-- Nothing where the terminal draws no images or the payload is not usable. -/
def draw (protocol : Protocol) (contentType : String) (image : Bytes) (placement : Placement) :
    Option Bytes :=
  if placement.cols = 0 ∨ placement.rows = 0 ∨ image = [] then none
  else
    match protocol with
    | .kitty => kittyDraw coders contentType image placement
    | .iTerm2 => some (iterm2Draw coders image placement)
    | .none => none

end Draw

end OpenAirplay.Images
