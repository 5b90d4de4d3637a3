import OpenAirplay.Screen

/-!
# The artwork on the screen

Terminal images are not part of the text, so the loop keeps which image it has drawn and
where, and sends one only when that is not what it wants there.
-/

namespace OpenAirplay.Tui

open Client

set_option autoImplicit false

structure Rect where
  x : U16
  y : U16
  width : U16
  height : U16
  deriving DecidableEq

structure DrawnArtwork where
  artwork : Artwork
  area : Rect
  deriving DecidableEq

/-! ## Where it goes -/

/-- The layout solver and the cell aspect: the two middle of four rows, of which only these
have a fixed height, and the width of a square of so many rows. -/
structure Cells where
  rows : Rect → Nat → Nat → Rect × Rect
  squareWidth : Nat → Nat

/-- So many rows in the middle of the area, or all of it. -/
def centerBlock (area : Rect) (height : Nat) : Rect :=
  if area.height.toNat ≤ height then area
  else
    { area with
        y := area.y + BitVec.ofNat 16 ((area.height.toNat - height) / 2)
        height := BitVec.ofNat 16 height }

/-- The box for artwork, above the text. -/
def layout (cells : Cells) (area : Rect) (textLines : Nat) (withArtwork : Bool) : Rect :=
  let gap := if withArtwork then 1 else 0
  let artHeight :=
    if withArtwork then
      min (min (area.width.toNat / 2) 20) (area.height.toNat - (textLines + gap + 2))
    else 0
  let block := artHeight + gap + textLines
  let top := (cells.rows (centerBlock area block) (artHeight + gap) textLines).1
  let artWidth := cells.squareWidth artHeight
  { x := top.x + BitVec.ofNat 16 ((top.width.toNat - artWidth) / 2)
    y := top.y
    width := BitVec.ofNat 16 (min artWidth top.width.toNat)
    height := BitVec.ofNat 16 artHeight }

namespace Screen

/-- There is artwork and a way to draw it. -/
def showsArtwork (s : Screen) : Bool := s.artwork.isSome && s.images != .none

def render (floats : Floats) (cells : Cells) (s : Screen) (area : Rect) : Rect :=
  layout cells area (s.lines floats area.width).length s.showsArtwork

end Screen

/-! ## Drawing it -/

/-- Whether the terminal takes what is written during one redraw. -/
structure Io where
  write : Bytes → Bool
  flush : Bool

/-- What one call did: the artwork it wanted, whether it called `draw` for it, and what it
leaves as drawn. -/
structure Redraw where
  wanted : Option DrawnArtwork
  attempted : Bool
  written : List Bytes
  drawn : Option DrawnArtwork
  failed : Bool
  deriving DecidableEq

def wantedArtwork (artwork : Option Artwork) (area : Rect) : Option DrawnArtwork :=
  (artwork.filter fun _ => 0 < area.width && 0 < area.height).map fun artwork => ⟨artwork, area⟩

/-- Escapes count from 1. -/
def DrawnArtwork.placement (d : DrawnArtwork) : Images.Placement :=
  ⟨d.area.x + 1, d.area.y + 1, d.area.width, d.area.height⟩

section Draw

variable (coders : Images.Coders) (images : Images.Protocol)

def DrawnArtwork.draw (d : DrawnArtwork) : Option Bytes :=
  Images.draw coders images d.artwork.contentType d.artwork.data d.placement

def drawArtwork (artwork : Option Artwork) (area : Rect) (drawn : Option DrawnArtwork) (io : Io) :
    Redraw :=
  let wanted := wantedArtwork artwork area
  if images = .none then ⟨wanted, false, [], drawn, false⟩
  else if wanted = drawn then ⟨wanted, false, [], drawn, false⟩
  else
    let cleared := if drawn.isSome then (Images.clear images).toList else []
    if cleared.all io.write then
      match wanted with
      | none => ⟨none, false, cleared, if io.flush then none else drawn, !io.flush⟩
      | some w =>
        match w.draw coders images with
        | some escape =>
          if io.write escape && io.flush then ⟨some w, true, cleared ++ [escape], some w, false⟩
          else ⟨some w, true, cleared ++ [escape], drawn, true⟩
        -- left as text only
        | none => ⟨some w, true, cleared, none, false⟩
    else ⟨wanted, false, cleared, drawn, true⟩

end Draw

/-! ## The loop -/

inductive KeyCode where
  | char (c : Char)
  | esc
  | other
  deriving DecidableEq

inductive KeyEventKind where
  | press
  | repeat
  | release
  deriving DecidableEq

structure KeyEvent where
  kind : KeyEventKind
  code : KeyCode
  control : Bool
  deriving DecidableEq

inductive TermEvent where
  | key (key : KeyEvent)
  | other
  deriving DecidableEq

/-- What ends the wait behind a redraw: `none` is the end of the updates or of the input, an
input that is `some none` has failed. -/
inductive Wake where
  | update (update : Option Update)
  | input (event : Option (Option TermEvent))
  | terminate
  | tick
  deriving DecidableEq

inductive Exit where
  | quit
  | disconnected
  | failed
  deriving DecidableEq

def KeyEvent.quits (key : KeyEvent) : Bool :=
  key.kind = .press && (key.code = .char 'c' && key.control || key.code = .char 'q' ||
    key.code = .esc)

/-- The frame of a redraw, none where the text cannot be drawn. -/
structure Turn where
  frame : Option Rect
  io : Io
  wake : Wake

def wakeUp (decode : String → Option Bytes) (s : Screen) : Wake → Except Exit Screen
  | .update (some u) => .ok (s.apply decode u)
  | .update none => .error .disconnected
  | .input (some (some (.key key))) => if key.quits then .error .quit else .ok s
  | .input (some (some .other)) => .ok s
  | .input (some none) => .error .failed
  | .input none => .error .quit
  | .terminate => .error .quit
  | .tick => .ok s

/-- What the loop is given once and for all. -/
structure Setup where
  decode : String → Option Bytes
  coders : Images.Coders
  floats : Floats
  cells : Cells
  images : Images.Protocol

/-- The redraws of these turns, and how the loop ended, if it did. -/
def eventLoop (setup : Setup) : Screen → Option DrawnArtwork → List Turn →
    List Redraw × Option Exit
  | _, _, [] => ([], none)
  | s, drawn, turn :: turns =>
    match turn.frame with
    | none => ([], some .failed)
    | some frame =>
      let area := s.render setup.floats setup.cells frame
      let redraw := drawArtwork setup.coders setup.images s.artwork area drawn turn.io
      if redraw.failed then ([redraw], some .failed)
      else
        match wakeUp setup.decode s turn.wake with
        | .error exit => ([redraw], some exit)
        | .ok s =>
          let rest := eventLoop setup s redraw.drawn turns
          (redraw :: rest.1, rest.2)

end OpenAirplay.Tui
