import OpenAirplay.Rtsp
import OpenAirplay.Shared.Stream

/-!
# Reading requests

Requests arrive one after another on a long-lived connection: a request line, header lines up
to an empty one, and as many bytes of body as the headers announce.
-/

namespace OpenAirplay

open Stream Text

set_option autoImplicit false

def maxHeaders : Nat := 128

/-- Cover art comes in a body of hundreds of kilobytes, this only catches a sender gone wrong. -/
def maxBody : Nat := 8 * 1024 * 1024

inductive ReadError where
  | malformedRequestLine (line : String)
  | notRtsp (line : String)
  | eofInsideHeaders
  | tooManyHeaders
  | malformedHeaderLine (line : String)
  | badContentLength (len : String)
  | bodyTooLarge (len : Nat)
  | notUtf8
  | unexpectedEof
  deriving DecidableEq

/-- `debug` quotes a string and escapes what cannot be printed. -/
def ReadError.message (debug : String → String) : ReadError → String
  | .malformedRequestLine line => "malformed request line: " ++ debug line
  | .notRtsp line => "not an RTSP request: " ++ debug line
  | .eofInsideHeaders => "EOF inside headers"
  | .tooManyHeaders => "too many headers"
  | .malformedHeaderLine line => "malformed header line: " ++ debug line
  | .badContentLength len => "bad Content-Length: " ++ debug len
  | .bodyTooLarge len => "body of " ++ Nat.repr len ++ " bytes is too large"
  | .notUtf8 => "stream did not contain valid UTF-8"
  | .unexpectedEof => "early eof"

abbrev Reading (A : Type) := Reader UInt8 ReadError A

def isLineEnd (c : Char) : Bool := c == '\n' || c == '\r'

/-- Up to the next newline, or to the end of the stream; nothing at the end. -/
def readLine : Reading (Option String) := do
  let bytes ← through 10
  if bytes = [] then pure none
  else
    match fromUtf8 bytes with
    | none => throw .notUtf8
    | some line => pure (some (.ofList (trimEnd isLineEnd line.toList)))

def requestLine (line : String) : Except ReadError (String × String) :=
  match splitN ' ' 3 line with
  | [method, uri, version] =>
    if method = "" then .error (.malformedRequestLine line)
    else if startsWith version "RTSP/" then .ok (method, uri)
    else .error (.notRtsp line)
  | _ => .error (.malformedRequestLine line)

/-- `room` is how many more headers are taken. -/
def readHeaders : Nat → Headers → Reading Headers
  | room, headers => do
    match ← readLine with
    | none => throw .eofInsideHeaders
    | some line =>
      if line = "" then pure headers
      else match room with
        | 0 => throw .tooManyHeaders
        | room + 1 =>
          match splitOnce line ':' with
          | none => throw (.malformedHeaderLine line)
          | some (name, value) => readHeaders room (headers ++ [(trim name, trim value)])

structure Head where
  method : String
  uri : String
  headers : Headers
  deriving DecidableEq

/-- All that is read line by line. An empty line where a request should start ends the
connection like the end of the stream. -/
def readHead : Reading (Option Head) := do
  match ← readLine with
  | none => pure none
  | some line =>
    if line = "" then pure none
    else
      let (method, uri) ← requestLine line
      let headers ← readHeaders maxHeaders []
      pure (some ⟨method, uri, headers⟩)

def readBody (headers : Headers) : Reading Bytes :=
  match headers.get "Content-Length" with
  | none => pure []
  | some len =>
    match parseUsize len with
    | none => throw (.badContentLength len)
    | some n => if maxBody < n then throw (.bodyTooLarge n) else exactly .unexpectedEof n

def readRequest : Reading (Option Request) := do
  match ← readHead with
  | none => pure none
  | some head =>
    let body ← readBody head.headers
    pure (some ⟨head.method, head.uri, head.headers, body⟩)

end OpenAirplay
