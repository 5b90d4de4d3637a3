import OpenAirplay.Text

/-!
# RTSP messages

Requests as the reader hands them on, and responses as the handlers build them.
-/

namespace OpenAirplay

open Text

set_option autoImplicit false

abbrev Headers := List (String × String)

/-- The first header of that name, whatever its case. -/
def Headers.get (headers : Headers) (name : String) : Option String :=
  (headers.find? fun kv => eqIgnoreAsciiCase kv.1 name).map Prod.snd

structure Request where
  method : String
  uri : String
  headers : Headers
  body : Bytes
  deriving DecidableEq

structure Response where
  status : Nat
  reason : String
  headers : List (String × String)
  deriving DecidableEq

namespace Response

def new (status : Nat) (reason : String) : Response := ⟨status, reason, []⟩

def ok : Response := new 200 "OK"

def header (response : Response) (name value : String) : Response :=
  { response with headers := response.headers ++ [(name, value)] }

@[simp] theorem header_status (response : Response) (name value : String) :
    (response.header name value).status = response.status := rfl

@[simp] theorem new_status (status : Nat) (reason : String) :
    (new status reason).status = status := rfl

end Response

/-- `name=value` among the parameters of a Transport or RTP-Info header. -/
def transportParam (header name : String) : Option U16 :=
  ((split header ';').findSome? fun kv => stripPrefix (trim kv) (name ++ "=")).bind
    fun v => parseU16 (trim v)

/-- `key="value"` of an `Authorization: Digest` header. -/
def digestParam (auth key : String) : Option String :=
  match afterFirst (key ++ "=\"").toList auth.toList with
  | none => none
  | some value =>
    match value.span (· != '"') with
    | (_, []) => none
    | (found, _ :: _) => some (.ofList found)

example : transportParam "RTP/AVP/UDP;unicast;control_port=6001; timing_port=6002 " "timing_port" =
    some 6002 := by decide

example : digestParam "Digest username=\"u\", uri=\"*\"" "uri" = some "*" := by decide

end OpenAirplay
