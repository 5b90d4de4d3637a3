import OpenAirplay.Session

/-!
# Request dispatch

Each connection owns one session: requests are dispatched one after another, and the
session is dropped when the connection ends.
-/

namespace OpenAirplay

set_option autoImplicit false

def serverId : String := "AirTunes/105.1"

def publicMethods : String :=
  "ANNOUNCE, SETUP, RECORD, PAUSE, FLUSH, TEARDOWN, OPTIONS, GET_PARAMETER, SET_PARAMETER"

structure Context where
  crates : Crates
  password : Option String
  mac : Vector UInt8 6
  localIp : IpAddr

namespace Context

/-- Method dispatch, behind the password. -/
def route (ctx : Context) (s : Session) (request : Request) : Action (Session × Response) :=
  match request.method with
  | "OPTIONS" => pure (s, Response.ok.header "Public" publicMethods)
  | "ANNOUNCE" => pure (s.handleAnnounce ctx.crates request)
  | "SETUP" => s.handleSetup request ctx.localIp
  | "RECORD" => pure (s, Session.handleRecord)
  | _ => do
    let (s, response) ← s.handleOther ctx.crates request
    pure (s, response.getD (.new 501 "Not Implemented"))

/-- The headers every response carries. -/
def finish (ctx : Context) (request : Request) (response : Response) : Response :=
  let response :=
    match request.headers.get "CSeq" with
    | none => response
    | some cseq => response.header "CSeq" cseq
  let response :=
    (response.header "Server" serverId).header "Audio-Jack-Status" "connected; type=analog"
  match request.headers.get "Apple-Challenge" with
  | none => response
  | some challenge =>
    match Crypto.appleResponse ctx.crates challenge ctx.localIp ctx.mac with
    | .ok value => response.header "Apple-Response" value
    | .error _ => response

def dispatch (ctx : Context) (s : Session) (request : Request) : Action (Session × Response) := do
  let (s, denied) ← s.authenticate ctx.crates ctx.password request
  let (s, response) ← match denied with
    | some response => pure (s, response)
    | none => ctx.route s request
  pure (s, ctx.finish request response)

def serve (ctx : Context) : Session → List Request → Action (Session × List Response)
  | s, [] => pure (s, [])
  | s, request :: requests => do
    let (s, response) ← ctx.dispatch s request
    let (s, responses) ← ctx.serve s requests
    pure (s, response :: responses)

def handleConnection (ctx : Context) (s : Session) (requests : List Request) :
    Action (List Response) := do
  let (s, responses) ← ctx.serve s requests
  s.drop
  pure responses

@[simp] theorem finish_status (ctx : Context) (request : Request) (response : Response) :
    (ctx.finish request response).status = response.status := by
  unfold finish
  cases request.headers.get "CSeq" <;> cases request.headers.get "Apple-Challenge" <;>
    simp only [Response.header_status]
  all_goals split <;> rfl

end Context

end OpenAirplay
