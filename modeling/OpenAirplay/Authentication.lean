import OpenAirplay.Handling

/-!
# The password check

What a connection without the password learns and changes, and which responses let one in.
-/

namespace OpenAirplay

open Text Program

set_option autoImplicit false

/-- An `Authorization: Digest` header whose response is that of this password over `nonce`. -/
def Matches (crates : Crates) (password nonce : String) (request : Request) : Prop :=
  ∃ auth realm username response uri, request.headers.get "Authorization" = some auth ∧
    startsWith auth "Digest " ∧ digestParam auth "realm" = some realm ∧
    digestParam auth "username" = some username ∧ digestParam auth "response" = some response ∧
    digestParam auth "uri" = some uri ∧
    response = Crypto.digestResponse crates username realm password request.method uri nonce

theorem answers_iff {crates : Crates} {password nonce : String} {request : Request} :
    Session.answers crates password nonce request = true ↔
      Matches crates password nonce request := by
  unfold Session.answers Matches
  constructor
  · intro h
    split at h
    · cases h
    · rename_i auth hauth
      split at h
      · rename_i hdigest
        split at h
        · rename_i realm username response uri hrealm husername hresponse huri
          exact ⟨auth, realm, username, response, uri, hauth, hdigest, hrealm, husername,
            hresponse, huri, (Crypto.ctEqHex_iff.mp h).symm⟩
        · cases h
      · cases h
  · rintro ⟨auth, realm, username, response, uri, hauth, hdigest, hrealm, husername, hresponse,
      huri, heq⟩
    simp only [hauth, hdigest, hrealm, husername, hresponse, huri, if_true]
    exact Crypto.ctEqHex_iff.mpr heq.symm

theorem Matches.digest_eq {crates : Crates} {password nonce nonce' : String} {request : Request}
    (h : Matches crates password nonce request) (h' : Matches crates password nonce' request) :
    ∃ username realm uri,
      Crypto.digestResponse crates username realm password request.method uri nonce =
        Crypto.digestResponse crates username realm password request.method uri nonce' := by
  obtain ⟨auth, realm, username, response, uri, hauth, _, hrealm, husername, hresponse, huri,
    heq⟩ :=
    h
  obtain ⟨auth', realm', username', response', uri', hauth', _, hrealm', husername', hresponse',
    huri', heq'⟩ := h'
  rw [hauth] at hauth'
  cases hauth'
  rw [hrealm] at hrealm'
  rw [husername] at husername'
  rw [hresponse] at hresponse'
  rw [huri] at huri'
  cases hrealm'
  cases husername'
  cases hresponse'
  cases huri'
  exact ⟨username, realm, uri, heq.symm.trans heq'⟩

namespace Session

theorem Handled.keepsAuth {ctx : Context} {s s' : Session} {request : Request} {trace : Trace}
    {status : Nat} (h : Handled ctx s request trace s' status) :
    s'.authorized = s.authorized ∧ s'.authNonce = s.authNonce := by
  cases h with
  | reported _ hsame _ =>
    rw [hsame.same]
    exact ⟨rfl, rfl⟩
  | announced _ => exact ⟨rfl, rfl⟩
  | rejected _ => exact ⟨rfl, rfl⟩
  | busy _ _ _ _ => exact ⟨rfl, rfl⟩
  | failed _ _ _ _ => exact ⟨rfl, rfl⟩
  | started _ _ _ _ hst =>
    obtain ⟨_, _, _, _, _, _, _, _, _, _, rfl⟩ := hst.opening
    exact ⟨rfl, rfl⟩
  | closed _ hdown _ =>
    obtain ⟨_, rfl⟩ := runs_teardown.mp hdown
    exact ⟨rfl, rfl⟩

theorem dispatch_auth {ctx : Context} {s s' : Session} {request : Request} {trace : Trace}
    {response : Response} (h : Runs (ctx.dispatch s request) trace (s', response)) :
    (s.admits ctx request ∧ s'.authorized = true ∧ s'.authNonce = s.authNonce) ∨
      (¬s.admits ctx request ∧ s'.authorized = s.authorized ∧ ∃ nonce, Challenged ctx s trace s' nonce ∧
        response = ctx.finish request (challenge nonce)) := by
  by_cases hadmits : s.admits ctx request
  · obtain ⟨routed, _, hroute⟩ := runs_dispatch_of_admits hadmits h
    obtain ⟨hauth, hnonce⟩ := (route_cases hroute).keepsAuth
    exact .inl ⟨hadmits, hauth, hnonce⟩
  · obtain ⟨nonce, rfl, hch⟩ := runs_dispatch_of_not_admits hadmits h
    exact .inr ⟨hadmits, by rw [hch.nonce_of_session], nonce, hch, rfl⟩

end Session

namespace Context

def withPassword (ctx : Context) (password : String) : Context :=
  { ctx with password := some password }

variable {ctx : Context} {password : String} {s s' : Session} {requests : List Request}
  {trace : Trace} {responses : List Response}

theorem admits_iff (hauth : s.authorized = false) (request : Request) :
    s.admits (ctx.withPassword password) request ↔
      Matches ctx.crates password (s.authNonce.getD "") request := by
  simp [Session.admits, withPassword, hauth, answers_iff]

theorem serve_nonce {nonce : String} (hnonce : s.authNonce = some nonce)
    (h : Runs (ctx.serve s requests) trace (s', responses)) : s'.authNonce = some nonce := by
  induction requests generalizing s trace responses with
  | nil =>
    obtain ⟨rfl, heq⟩ := runs_pure.mp h
    obtain ⟨rfl, rfl⟩ := Prod.mk.inj heq
    exact hnonce
  | cons request requests ih =>
    obtain ⟨part, s₁, response, rest, responses', rfl, hdispatch, hserve, rfl⟩ :=
      runs_serve_cons.mp h
    refine ih ?_ hserve
    rcases Session.dispatch_auth hdispatch with ⟨_, _, hsame⟩ | ⟨_, _, nonce', hch, _⟩
    · rw [hsame, hnonce]
    · rw [hch.nonce_of_session]
      rcases hch.issued with ⟨hheld, _⟩ | ⟨hnone, _⟩
      · rw [← hheld, hnonce]
      · rw [hnonce] at hnone
        cases hnone

theorem serve_nonce_made (h : Runs (ctx.serve s requests) trace (s', responses)) :
    s'.authNonce = s.authNonce ∨
      ∃ bytes : Vector UInt8 8, s'.authNonce = some (ctx.crates.base64Encode bytes.toList) := by
  induction requests generalizing s trace responses with
  | nil =>
    obtain ⟨rfl, heq⟩ := runs_pure.mp h
    obtain ⟨rfl, rfl⟩ := Prod.mk.inj heq
    exact .inl rfl
  | cons request requests ih =>
    obtain ⟨part, s₁, response, rest, responses', rfl, hdispatch, hserve, rfl⟩ :=
      runs_serve_cons.mp h
    rcases ih hserve with hrest | hmade
    · rw [hrest]
      rcases Session.dispatch_auth hdispatch with ⟨_, _, hsame⟩ | ⟨_, _, nonce, hch, _⟩
      · exact .inl hsame
      · rw [hch.nonce_of_session]
        rcases hch.issued with ⟨hheld, _⟩ | ⟨_, bytes, rfl, _⟩
        · exact .inl hheld.symm
        · exact .inr ⟨bytes, rfl⟩
    · exact .inr hmade

theorem serve_authorized (hauth : s.authorized = true)
    (h : Runs (ctx.serve s requests) trace (s', responses)) : s'.authorized = true := by
  induction requests generalizing s trace responses with
  | nil =>
    obtain ⟨rfl, heq⟩ := runs_pure.mp h
    obtain ⟨rfl, rfl⟩ := Prod.mk.inj heq
    exact hauth
  | cons request requests ih =>
    obtain ⟨part, s₁, response, rest, responses', rfl, hdispatch, hserve, rfl⟩ :=
      runs_serve_cons.mp h
    refine ih ?_ hserve
    rcases Session.dispatch_auth hdispatch with ⟨_, hauth₁, _⟩ | ⟨_, hauth₁, _⟩
    · exact hauth₁
    · rw [hauth₁, hauth]

/-! ## A client with the password -/

/-- MD5 at the strings of a client called "player", for the passwords 1234 and 5678. -/
def md5Player (bytes : Bytes) : Vector UInt8 16 :=
  if bytes = utf8 "player:raop:1234" then
    #v[0x67, 0x52, 0x9e, 0xa3, 0x8b, 0xa8, 0xd1, 0x94, 0x04, 0xb3, 0x2b, 0xdd, 0x86, 0xf7, 0x24, 0x1c]
  else if bytes = utf8 "OPTIONS:*" then
    #v[0x28, 0x11, 0xbe, 0xf9, 0x30, 0x80, 0xf9, 0x7b, 0x82, 0xd1, 0xbf, 0xfb, 0x01, 0xfd, 0x27, 0xad]
  else if bytes =
      utf8 "67529ea38ba8d19404b32bdd86f7241c::2811bef93080f97b82d1bffb01fd27ad" then
    #v[0x0d, 0x60, 0x58, 0x52, 0xdf, 0xbe, 0x7d, 0xf9, 0xdb, 0x53, 0xfc, 0xf5, 0x23, 0x32, 0x5d, 0x81]
  else if bytes =
      utf8 "67529ea38ba8d19404b32bdd86f7241c:AAAAAAAAAAA=:2811bef93080f97b82d1bffb01fd27ad" then
    #v[0x49, 0x6c, 0x4a, 0xa5, 0xa0, 0x2f, 0x1e, 0x44, 0x26, 0x8c, 0xd8, 0xd8, 0x37, 0x1e, 0x94, 0x26]
  else if bytes = utf8 "player:raop:5678" then
    #v[0x3e, 0x08, 0xd3, 0x0a, 0x4b, 0x59, 0x10, 0xaa, 0xbe, 0xca, 0x6a, 0x0d, 0x21, 0x75, 0xb1, 0x4e]
  else if bytes =
      utf8 "3e08d30a4b5910aabeca6a0d2175b14e::2811bef93080f97b82d1bffb01fd27ad" then
    #v[0x01, 0x2d, 0x4d, 0x5f, 0x48, 0x5a, 0x88, 0x71, 0x69, 0xa4, 0x26, 0xdb, 0xef, 0xa0, 0x8a, 0xfc]
  else if bytes =
      utf8 "3e08d30a4b5910aabeca6a0d2175b14e:AAAAAAAAAAA=:2811bef93080f97b82d1bffb01fd27ad" then
    #v[0xf9, 0x89, 0xf6, 0x53, 0x00, 0x24, 0xd7, 0x70, 0x75, 0xe4, 0x77, 0xe4, 0xf5, 0xd4, 0x4f, 0xd9]
  else .replicate 16 0

/-- A receiver whose random bytes are all zero. -/
def digestContext : Context :=
  { openContext with
    crates := { openContext.crates with
      md5 := md5Player, base64Encode := fun _ => "AAAAAAAAAAA=" } }

def optionsRequest (authorization : List (String × String)) : Request :=
  ⟨"OPTIONS", "*", authorization, []⟩

def digestHeader (nonce response : String) : List (String × String) :=
  [("Authorization", "Digest username=\"player\", realm=\"raop\", nonce=\"" ++ nonce ++
    "\", uri=\"*\", response=\"" ++ response ++ "\"")]

def challenged : List Request :=
  [optionsRequest [],
    optionsRequest (digestHeader "AAAAAAAAAAA=" "496c4aa5a02f1e44268cd8d8371e9426")]

def unchallenged : List Request :=
  [optionsRequest (digestHeader "" "0d605852dfbe7df9db53fcf523325d81")]

def digestRun (requests : List Request) : Trace × Session × List Response :=
  ((digestContext.withPassword "1234").serve client requests).execute obliging

theorem runs_digestRun (requests : List Request) :
    Runs ((digestContext.withPassword "1234").serve client requests) (digestRun requests).1
      ((digestRun requests).2.1, (digestRun requests).2.2) := runs_execute obliging _

/-! ## Without the password -/

/-- No request of the run answers the nonce held when it comes; the empty one at first. -/
def Unmatched (ctx : Context) (password : String) (s : Session) (requests : List Request)
    (trace : Trace) : Prop :=
  ∀ t request part, (ctx.withPassword password).Dispatched s requests trace t request part →
    ¬Matches ctx.crates password (t.authNonce.getD "") request

def Issues (response : Response) (nonce : String) : Prop :=
  response.status = 401 ∧
    ("WWW-Authenticate", "Digest realm=\"raop\", nonce=\"" ++ nonce ++ "\"") ∈ response.headers

theorem issues_finish (ctx : Context) (request : Request) (nonce : String) :
    Issues (ctx.finish request (Session.challenge nonce)) nonce := by
  refine ⟨by simp [Session.challenge], ?_⟩
  unfold finish
  cases request.headers.get "CSeq" <;> cases request.headers.get "Apple-Challenge" <;>
    simp only
  all_goals first | (split <;> simp [Session.challenge, Response.header]) |
    simp [Session.challenge, Response.header]

/-- Only 401s with one nonce, and nothing but the nonce is made or kept. -/
structure Locked (s : Session) (trace : Trace) (s' : Session) (responses : List Response) :
    Prop where
  refused : ∃ nonce, ∀ response ∈ responses, Issues response nonce
  silent : ∀ call ∈ trace, call.1 = .ask .random
  unchanged : s' = { s with authNonce := s'.authNonce }

theorem serve_held {nonce : String} (hauth : s.authorized = false)
    (hnonce : s.authNonce = some nonce) (hno : ctx.Unmatched password s requests trace)
    (h : Runs ((ctx.withPassword password).serve s requests) trace (s', responses)) :
    trace = [] ∧ s' = s ∧
      responses = requests.map fun request => ctx.finish request (Session.challenge nonce) := by
  induction requests generalizing trace responses with
  | nil =>
    obtain ⟨rfl, heq⟩ := runs_pure.mp h
    obtain ⟨rfl, rfl⟩ := Prod.mk.inj heq
    exact ⟨rfl, rfl, rfl⟩
  | cons request requests ih =>
    obtain ⟨part, s₁, response, rest, responses', rfl, hdispatch, hserve, rfl⟩ :=
      runs_serve_cons.mp h
    rcases Session.dispatch_auth hdispatch with ⟨hadmits, _⟩ | ⟨_, _, nonce', hch, rfl⟩
    · refine absurd ((admits_iff hauth request).mp hadmits) (hno s request part ?_)
      exact dispatched_head hdispatch requests rest
    · rcases hch.issued with ⟨hheld, rfl⟩ | ⟨hnone, _⟩
      · rw [hnonce] at hheld
        cases hheld
        have hsame : s₁ = s := by rw [hch.nonce_of_session, ← hnonce]
        subst hsame
        have hrest : ctx.Unmatched password s₁ requests rest := fun t request' part' hd =>
          hno t request' part' (hd.tail hdispatch)
        obtain ⟨rfl, hs, rfl⟩ := ih hrest hserve
        exact ⟨rfl, hs, rfl⟩
      · rw [hnonce] at hnone
        cases hnone

theorem serve_unmatched (hauth : s.authorized = false) (hnone : s.authNonce = none)
    (hno : ctx.Unmatched password s requests trace)
    (h : Runs ((ctx.withPassword password).serve s requests) trace (s', responses)) :
    (requests = [] ∧ trace = [] ∧ s' = s ∧ responses = []) ∨
      ∃ bytes, trace = [asked .random bytes] ∧
        s' = { s with authNonce := some (ctx.crates.base64Encode bytes.toList) } ∧
        responses = requests.map fun request =>
          ctx.finish request (Session.challenge (ctx.crates.base64Encode bytes.toList)) := by
  cases requests with
  | nil =>
    obtain ⟨rfl, heq⟩ := runs_pure.mp h
    obtain ⟨rfl, rfl⟩ := Prod.mk.inj heq
    exact .inl ⟨rfl, rfl, rfl, rfl⟩
  | cons request requests =>
    obtain ⟨part, s₁, response, rest, responses', rfl, hdispatch, hserve, rfl⟩ :=
      runs_serve_cons.mp h
    rcases Session.dispatch_auth hdispatch with ⟨hadmits, _⟩ | ⟨_, _, nonce, hch, rfl⟩
    · refine absurd ((admits_iff hauth request).mp hadmits) (hno s request part ?_)
      exact dispatched_head hdispatch requests rest
    · rcases hch.issued with ⟨hheld, _⟩ | ⟨_, bytes, rfl, rfl⟩
      · rw [hnone] at hheld
        cases hheld
      · obtain rfl := hch.nonce_of_session
        have hrest : ctx.Unmatched password
            { s with authNonce := some (ctx.crates.base64Encode bytes.toList) } requests rest :=
          fun t request' part' hd => hno t request' part' (hd.tail hdispatch)
        obtain ⟨rfl, rfl, rfl⟩ := serve_held
          (s := { s with authNonce := some (ctx.crates.base64Encode bytes.toList) })
          hauth rfl hrest hserve
        exact .inr ⟨bytes, rfl, rfl, rfl⟩

theorem locked_of_unmatched (hauth : s.authorized = false) (hnone : s.authNonce = none)
    (hno : ctx.Unmatched password s requests trace)
    (h : Runs ((ctx.withPassword password).serve s requests) trace (s', responses)) :
    Locked s trace s' responses := by
  rcases serve_unmatched hauth hnone hno h with ⟨_, rfl, rfl, rfl⟩ | ⟨bytes, rfl, rfl, rfl⟩
  · exact ⟨⟨"", by simp⟩, by simp, rfl⟩
  · refine ⟨⟨ctx.crates.base64Encode bytes.toList, ?_⟩, ?_, rfl⟩
    · intro response hresponse
      obtain ⟨request, _, rfl⟩ := List.mem_map.mp hresponse
      exact issues_finish ctx request _
    · intro call hcall
      rw [List.mem_singleton.mp hcall]
      rfl

/-- What the random bytes of two runs are, they are in both. -/
def SameRandom (trace trace' : Trace) : Prop :=
  ∀ bytes bytes', asked .random bytes ∈ trace → asked .random bytes' ∈ trace' → bytes = bytes'

theorem responses_eq_of_unmatched {password' : String} {s'' : Session} {trace' : Trace}
    {responses' : List Response} (hauth : s.authorized = false) (hnone : s.authNonce = none)
    (h : Runs ((ctx.withPassword password).serve s requests) trace (s', responses))
    (h' : Runs ((ctx.withPassword password').serve s requests) trace' (s'', responses'))
    (hno : ctx.Unmatched password s requests trace)
    (hno' : ctx.Unmatched password' s requests trace') (hsame : SameRandom trace trace') :
    responses = responses' := by
  rcases serve_unmatched hauth hnone hno h with ⟨rfl, _, _, rfl⟩ | ⟨bytes, rfl, _, rfl⟩
  · rcases serve_unmatched hauth hnone hno' h' with ⟨_, _, _, rfl⟩ | ⟨_, _, _, rfl⟩ <;> rfl
  · rcases serve_unmatched hauth hnone hno' h' with ⟨rfl, _, _, rfl⟩ | ⟨bytes', rfl, _, rfl⟩
    · rfl
    · rw [hsame bytes bytes' List.mem_cons_self List.mem_cons_self]

/-- The request goes to method dispatch, and its response only gets the common headers. -/
def Routed (ctx : Context) (s : Session) (request : Request) : Prop :=
  ctx.dispatch s request = (do
    let (s, response) ← ctx.route { s with authorized := true } request
    pure (s, ctx.finish request response))

theorem routed_of_admits {request request' : Request} {t : Session} {part : Trace}
    (hadmits : s.admits ctx request)
    (hd : ctx.Dispatched s (request :: requests) trace t request' part) :
    ctx.Routed t request' := by
  obtain ⟨pre, post, before, after, rs, result, hrequests, rfl, hpre, hpart⟩ := hd
  cases pre with
  | nil =>
    obtain ⟨_, heq⟩ := runs_pure.mp hpre
    obtain ⟨rfl, _⟩ := Prod.mk.inj heq
    obtain ⟨rfl, _⟩ := List.cons.inj hrequests
    exact Session.dispatch_of_admits hadmits
  | cons first pre =>
    obtain ⟨rfl, rfl⟩ := List.cons.inj hrequests
    obtain ⟨_, s₁, _, _, _, _, hdispatch, hserve, _⟩ := runs_serve_cons.mp hpre
    rcases Session.dispatch_auth hdispatch with ⟨_, hauth, _⟩ | ⟨hnot, _⟩
    · refine Session.dispatch_of_admits ?_
      simp [Session.admits, serve_authorized hauth hserve]
    · exact absurd hadmits hnot

/-- A connection that never answers its nonce learns only that nonce and changes nothing, it
cannot tell passwords apart, and once it does answer it is let in for good. -/
theorem password_gate (ctx : Context) (observer : Bool) (peerIp : IpAddr) (password : String) :
    (∀ requests trace s' responses,
      Runs ((ctx.withPassword password).serve (.new observer peerIp) requests) trace
          (s', responses) →
        ctx.Unmatched password (.new observer peerIp) requests trace →
          Locked (.new observer peerIp) trace s' responses) ∧
    (∀ password' requests trace trace' s' s'' responses responses',
      Runs ((ctx.withPassword password).serve (.new observer peerIp) requests) trace
          (s', responses) →
        Runs ((ctx.withPassword password').serve (.new observer peerIp) requests) trace'
            (s'', responses') →
          ctx.Unmatched password (.new observer peerIp) requests trace →
            ctx.Unmatched password' (.new observer peerIp) requests trace' →
              SameRandom trace trace' → responses = responses') ∧
    ∀ earlier before s responses request later trace,
      Runs ((ctx.withPassword password).serve (.new observer peerIp) earlier) before
          (s, responses) →
        Matches ctx.crates password (s.authNonce.getD "") request →
          ∀ t request' part,
            (ctx.withPassword password).Dispatched s (request :: later) trace t request' part →
              (ctx.withPassword password).Routed t request' := by
  refine ⟨?_, ?_, ?_⟩
  · intro requests trace s' responses h hno
    exact locked_of_unmatched rfl rfl hno h
  · intro password' requests trace trace' s' s'' responses responses' h h' hno hno' hsame
    exact responses_eq_of_unmatched rfl rfl h h' hno hno' hsame
  · intro earlier before s responses request later trace _ hmatches t request' part hd
    refine routed_of_admits ?_ hd
    cases hauth : s.authorized with
    | true => simp [Session.admits, hauth]
    | false => exact (admits_iff hauth request).mpr hmatches

/-- The digest of the password 0000, over the nonce of the first answer: once, and once more. -/
def guesses : List Request :=
  [optionsRequest [],
    optionsRequest (digestHeader "AAAAAAAAAAA=" "63e6274df47dcf2ae1f5396771e6178d"),
    optionsRequest (digestHeader "AAAAAAAAAAA=" "63e6274df47dcf2ae1f5396771e6178d")]

/-- The requests to a receiver with that password. -/
def guessRun (password : String) (requests : List Request) : Trace × Session × List Response :=
  ((digestContext.withPassword password).serve client requests).execute obliging

theorem runs_guessRun (password : String) (requests : List Request) :
    Runs ((digestContext.withPassword password).serve client requests)
      (guessRun password requests).1
      ((guessRun password requests).2.1, (guessRun password requests).2.2) := runs_execute obliging _

theorem unmatched_guessRun {password : String} {requests : List Request}
    (h : ∀ request ∈ requests, ∀ nonce ∈ ["", "AAAAAAAAAAA="],
      Session.answers digestContext.crates password nonce request = false) :
    digestContext.Unmatched password client requests (guessRun password requests).1 := by
  rintro t request part ⟨pre, post, _, _, _, _, hrequests, -, hserve, -⟩ hmatches
  have hmem : request ∈ requests := by simp [hrequests]
  have hnonce : t.authNonce.getD "" ∈ ["", "AAAAAAAAAAA="] := by
    rcases serve_nonce_made hserve with hsame | ⟨bytes, hmade⟩
    · rw [hsame]
      exact List.mem_cons_self
    · rw [hmade]
      exact List.mem_cons_of_mem _ List.mem_cons_self
  have hrefused := h request hmem _ hnonce
  rw [answers_iff.mpr hmatches] at hrefused
  cases hrefused

theorem sameRandom_guessRun (password password' : String) (requests : List Request) :
    SameRandom (guessRun password requests).1 (guessRun password' requests).1 := by
  intro bytes bytes' hmem hmem'
  have hzero := answer_of_mem_execute hmem
  have hzero' := answer_of_mem_execute hmem'
  exact hzero.trans hzero'.symm

/-- Three refusals that say nothing of the password, and then the right digest. -/
theorem password_gate_guessed :
    Locked client (guessRun "1234" guesses).1 (guessRun "1234" guesses).2.1
        (guessRun "1234" guesses).2.2 ∧
      (guessRun "1234" guesses).2.2 = (guessRun "5678" guesses).2.2 ∧
        ∀ trace t request part, (digestContext.withPassword "1234").Dispatched
          (guessRun "1234" guesses).2.1
          [optionsRequest (digestHeader "AAAAAAAAAAA=" "496c4aa5a02f1e44268cd8d8371e9426"),
            optionsRequest []] trace t request part →
              (digestContext.withPassword "1234").Routed t request := by
  obtain ⟨hlocked, hsame, hadmits⟩ := password_gate digestContext false client.peerIp "1234"
  have hno : digestContext.Unmatched "1234" client guesses (guessRun "1234" guesses).1 :=
    unmatched_guessRun (by decide +kernel)
  have hno' : digestContext.Unmatched "5678" client guesses (guessRun "5678" guesses).1 :=
    unmatched_guessRun (by decide +kernel)
  refine ⟨hlocked guesses _ _ _ (runs_guessRun "1234" guesses) hno, ?_, ?_⟩
  · exact hsame "5678" guesses _ _ _ _ _ _ (runs_guessRun "1234" guesses)
      (runs_guessRun "5678" guesses) hno hno' (sameRandom_guessRun "1234" "5678" guesses)
  · intro trace
    exact hadmits guesses _ _ _ _ _ trace (runs_guessRun "1234" guesses)
      (answers_iff.mp (by decide +kernel))

/-! ## Which nonce is answered -/

/-- In this run `request` lets the connection in, from state `t` and after these responses. -/
def LetsIn (ctx : Context) (s : Session) (requests : List Request) (trace : Trace)
    (responses : List Response) (t : Session) (request : Request) : Prop :=
  ∃ pre post before part after t' response, requests = pre ++ request :: post ∧
    trace = before ++ part ++ after ∧ Runs (ctx.serve s pre) before (t, responses) ∧
      Runs (ctx.dispatch t request) part (t', response) ∧ t.authorized = false ∧
      t'.authorized = true

def Makes (crates : Crates) (trace : Trace) (nonce : String) : Prop :=
  ∃ bytes, asked .random bytes ∈ trace ∧ nonce = crates.base64Encode bytes.toList

/-- Different nonces have different digests. -/
def TellsNonces (crates : Crates) (password : String) : Prop :=
  ∀ username realm method uri,
    Set.InjOn (Crypto.digestResponse crates username realm password method uri)
      (Set.range fun bytes : Vector UInt8 8 => crates.base64Encode bytes.toList)

/-- A connection is let in only for a nonce of an earlier 401 of its own. -/
structure AnswersOwn (ctx : Context) (password : String) (s : Session) (requests : List Request)
    (trace : Trace) : Prop where
  issued : ∀ responses t request,
    (ctx.withPassword password).LetsIn s requests trace responses t request →
      ∃ nonce, Matches ctx.crates password nonce request ∧
        ∃ response ∈ responses, Issues response nonce
  own : ∀ other foreign, (∀ nonce, Makes ctx.crates trace nonce → ¬Makes ctx.crates other nonce) →
    Makes ctx.crates other foreign → TellsNonces ctx.crates password →
      ∀ responses t request,
        (ctx.withPassword password).LetsIn s requests trace responses t request →
          ¬Matches ctx.crates password foreign request

theorem LetsIn.matches {t : Session} {request : Request}
    (h : (ctx.withPassword password).LetsIn s requests trace responses t request) :
    Matches ctx.crates password (t.authNonce.getD "") request := by
  obtain ⟨_, _, _, _, _, _, _, _, _, _, hdispatch, hauth, hin⟩ := h
  rcases Session.dispatch_auth hdispatch with ⟨hadmits, _⟩ | ⟨_, hsame, _⟩
  · exact (admits_iff hauth request).mp hadmits
  · rw [hsame, hauth] at hin
    cases hin

theorem serve_first_nonce {t : Session} {request : Request} {requests : List Request}
    {before : Trace} {rs : List Response} (hnone : s.authNonce = none)
    (h : Runs (ctx.serve s (request :: requests)) before (t, rs)) :
    t.authorized = true ∨ ∃ nonce, t.authNonce = some nonce ∧ Makes ctx.crates before nonce ∧
      ∃ response ∈ rs, Issues response nonce := by
  obtain ⟨part, s₁, response, rest, responses', rfl, hdispatch, hserve, rfl⟩ := runs_serve_cons.mp h
  rcases Session.dispatch_auth hdispatch with ⟨_, hauth, _⟩ | ⟨_, _, nonce, hch, rfl⟩
  · exact .inl (serve_authorized hauth hserve)
  · refine .inr ⟨nonce, serve_nonce ?_ hserve, ?_, _, List.mem_cons_self, issues_finish ..⟩
    · rw [hch.nonce_of_session]
    · rcases hch.issued with ⟨hheld, _⟩ | ⟨_, bytes, rfl, rfl⟩
      · rw [hnone] at hheld
        cases hheld
      · exact ⟨bytes, by simp, rfl⟩

theorem LetsIn.nonce {t : Session} {request : Request} (hfresh : s.authNonce = none)
    (h : (ctx.withPassword password).LetsIn s requests trace responses t request)
    (hfirst : ∀ first ∈ requests.head?, ¬Matches ctx.crates password "" first) :
    ∃ nonce, Matches ctx.crates password nonce request ∧ Makes ctx.crates trace nonce ∧
      ∃ response ∈ responses, Issues response nonce := by
  have hmatches := h.matches
  obtain ⟨pre, post, before, part, after, _, _, rfl, rfl, hserve, _, hauth, _⟩ := h
  cases pre with
  | nil =>
    obtain ⟨rfl, heq⟩ := runs_pure.mp hserve
    obtain ⟨rfl, rfl⟩ := Prod.mk.inj heq
    rw [hfresh] at hmatches
    exact absurd hmatches (hfirst request rfl)
  | cons first pre =>
    rcases serve_first_nonce hfresh hserve with hin | ⟨nonce, hnonce, ⟨bytes, hmem, heq⟩, hissued⟩
    · rw [hauth] at hin
      cases hin
    · rw [hnonce] at hmatches
      exact ⟨nonce, hmatches, ⟨bytes, by simp [hmem], heq⟩, hissued⟩

theorem letsIn_head {first : Request} (hauth : s.authorized = false) (hnone : s.authNonce = none)
    (hmatches : Matches ctx.crates password "" first)
    (h : Runs ((ctx.withPassword password).serve s (first :: requests)) trace (s', responses)) :
    (ctx.withPassword password).LetsIn s (first :: requests) trace [] s first := by
  obtain ⟨part, s₁, response, rest, _, rfl, hdispatch, _, _⟩ := runs_serve_cons.mp h
  refine ⟨[], requests, [], part, rest, s₁, response, rfl, rfl, runs_pure.mpr ⟨rfl, rfl⟩,
    hdispatch, hauth, ?_⟩
  have hadmits : s.admits (ctx.withPassword password) first := by
    rw [admits_iff hauth, hnone]
    exact hmatches
  rcases Session.dispatch_auth hdispatch with ⟨_, hin, _⟩ | ⟨hnot, _⟩
  · exact hin
  · exact absurd hadmits hnot

/-- A connection is let in only for its own nonce exactly when its first request does not
answer the empty one. -/
theorem answers_own_iff (ctx : Context) (observer : Bool) (peerIp : IpAddr) (password : String)
    (requests : List Request) (trace : Trace) (s' : Session) (responses : List Response)
    (h : Runs ((ctx.withPassword password).serve (.new observer peerIp) requests) trace
      (s', responses)) :
    ctx.AnswersOwn password (.new observer peerIp) requests trace ↔
      ∀ first ∈ requests.head?, ¬Matches ctx.crates password "" first := by
  constructor
  · intro hown first hfirst hmatches
    cases requests with
    | nil => cases hfirst
    | cons request requests =>
      cases hfirst
      obtain ⟨_, _, response, hmem, _⟩ := hown.issued _ _ _ (letsIn_head rfl rfl hmatches h)
      cases hmem
  · intro hfirst
    refine ⟨?_, ?_⟩
    · intro rs t request hin
      obtain ⟨nonce, hmatches, _, hissued⟩ := hin.nonce rfl hfirst
      exact ⟨nonce, hmatches, hissued⟩
    · intro other foreign hapart hforeign htells rs t request hin hmatches'
      obtain ⟨nonce, hmatches, hmade, _⟩ := hin.nonce rfl hfirst
      obtain ⟨username, realm, uri, heq⟩ := hmatches.digest_eq hmatches'
      have hsame : nonce = foreign := by
        refine htells username realm request.method uri ?_ ?_ heq
        · obtain ⟨bytes, _, rfl⟩ := hmade
          exact ⟨bytes, rfl⟩
        · obtain ⟨bytes, _, rfl⟩ := hforeign
          exact ⟨bytes, rfl⟩
      rw [hsame] at hmade
      exact hapart foreign hmade hforeign

theorem answers_own_challenge :
    digestContext.AnswersOwn "1234" client challenged (digestRun challenged).1 ↔
      ∀ first ∈ challenged.head?, ¬Matches digestContext.crates "1234" "" first :=
  answers_own_iff digestContext false client.peerIp "1234" challenged _ _ _
    (runs_digestRun challenged)

/-- Knowing the password, a client is let in by its first request, without any challenge. -/
theorem empty_nonce_accepted :
    Runs ((digestContext.withPassword "1234").serve client unchallenged) (digestRun unchallenged).1
        ((digestRun unchallenged).2.1, (digestRun unchallenged).2.2) ∧
      (digestRun unchallenged).2.2.map Response.status = [200] ∧
      (digestRun unchallenged).2.1.authorized = true ∧
      ¬digestContext.AnswersOwn "1234" client unchallenged (digestRun unchallenged).1 := by
  refine ⟨runs_digestRun unchallenged, by decide +kernel, by decide +kernel, ?_⟩
  intro hown
  have hmatches : Matches digestContext.crates "1234" ""
      (optionsRequest (digestHeader "" "0d605852dfbe7df9db53fcf523325d81")) :=
    answers_iff.mp (by decide +kernel)
  obtain ⟨_, _, response, hmem, _⟩ :=
    hown.issued _ _ _ (letsIn_head rfl rfl hmatches (runs_digestRun unchallenged))
  cases hmem

end Context

end OpenAirplay
