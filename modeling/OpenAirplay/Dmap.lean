import OpenAirplay.Text

/-!
# DMAP track metadata

A sequence of entries, each a four-byte tag, a big-endian length and that many bytes;
the fields sit inside `mlit` containers.
-/

namespace OpenAirplay.Dmap

open Text

set_option autoImplicit false

structure TrackMetadata where
  title : Option String := none
  artist : Option String := none
  album : Option String := none
  deriving DecidableEq

/-- The entries of one level. One that runs past the end of the data ends the walk. -/
def walk : Nat → Bytes → List (Bytes × Bytes)
  | 0, _ => []
  | fuel + 1, data =>
    if data.length < 8 then []
    else
      let tag := data.take 4
      let len := (u32FromBe (data.getD 4 0) (data.getD 5 0) (data.getD 6 0) (data.getD 7 0)).toNat
      let rest := data.drop 8
      if rest.length < len then []
      else (tag, rest.take len) :: walk fuel (rest.drop len)

/-- Every entry takes at least eight bytes, so the length is enough turns. -/
def entries (data : Bytes) : List (Bytes × Bytes) := walk data.length data

def mlit : Bytes := [0x6d, 0x6c, 0x69, 0x74]
def minm : Bytes := [0x6d, 0x69, 0x6e, 0x6d]
def asar : Bytes := [0x61, 0x73, 0x61, 0x72]
def asal : Bytes := [0x61, 0x73, 0x61, 0x6c]

def TrackMetadata.field (m : TrackMetadata) (entry : Bytes × Bytes) : TrackMetadata :=
  if entry.1 = minm then { m with title := some (fromUtf8Lossy entry.2) }
  else if entry.1 = asar then { m with artist := some (fromUtf8Lossy entry.2) }
  else if entry.1 = asal then { m with album := some (fromUtf8Lossy entry.2) }
  else m

def container (found : Option TrackMetadata) (entry : Bytes × Bytes) : Option TrackMetadata :=
  if entry.1 = mlit then some ((entries entry.2).foldl TrackMetadata.field (found.getD {}))
  else found

def parse (body : Bytes) : Option TrackMetadata := (entries body).foldl container none

example : parse (mlit ++ u32ToBe 12 ++ (minm ++ u32ToBe 4 ++ [0x53, 0x6f, 0x6e, 0x67])) =
    some { title := some "Song" } := by decide

end OpenAirplay.Dmap
