import OpenAirplay.Mac
import OpenAirplay.Replies

/-!
# Who a receiver says it is

The MAC address stands in the name of the service and in every answer to a challenge, and a
sender compares the two. It finds them the same when it has reached the receiver that the name
and the address belong to, and else not.
-/

namespace OpenAirplay.Facade

open Crypto Program Text

set_option autoImplicit false

/-! ## The receiver -/

/-- Shared by the server and the advertisement. -/
structure Config where
  name : String
  port : U16
  mac : Mac
  password : Option String

structure Receiver where
  config : Config
  advertise : Bool

structure ReceiverBuilder where
  name : String := "OpenAirPlay"
  port : U16 := 5000
  mac : Option Mac := none
  advertise : Bool := true
  password : Option String := none

/-- Locally administered. -/
def fallbackMac : Mac := #v[0x02, 0x4f, 0x41, 0x50, 0x31, 0x00]

/-- `netDir` is what `/sys/class/net` lists. -/
def ReceiverBuilder.build (b : ReceiverBuilder) (netDir : Option (List Mac.Interface)) :
    Receiver where
  config := ⟨b.name, b.port, (b.mac.or (Mac.discoverIn netDir)).getD fallbackMac, b.password⟩
  advertise := b.advertise

namespace Config

def macHex (config : Config) : String := config.mac.hex

def serviceName (config : Config) : String := config.macHex ++ "@" ++ config.name

/-- What a connection that came in at this address is served with. -/
def context (config : Config) (crates : Crates) (localIp : IpAddr) : Context :=
  ⟨crates, config.password, config.mac, localIp⟩

end Config

def txtRecords (password : Option String) : List String :=
  let pw := if password.isSome then "pw=true" else "pw=false"
  ["txtvers=1", "ch=2", "cn=0,1", "ek=1", "et=0,1", "sv=false", "da=true", "sr=44100", "ss=16", pw,
    "vn=65537", "tp=UDP", "md=0,1,2", "am=OpenAirPlay", "vs=105.1", "sf=0x4"]

/-- One service of an `_raop._tcp` browse. -/
structure Advertisement where
  name : String
  port : U16
  txt : List String

def Receiver.publish (receiver : Receiver) : Option Advertisement :=
  if receiver.advertise then
    some ⟨receiver.config.serviceName, receiver.config.port, txtRecords receiver.config.password⟩
  else none

/-! ## The sender -/

/-- What is signed: challenge, address and MAC, padded. -/
def signedMessage (challenge : Bytes) (address : IpAddr) (mac : Mac) : Bytes :=
  let message := challenge ++ ipBytes address ++ mac.toList
  message ++ List.replicate (32 - message.length) 0

/-- A sender that found a service of this name, and connects to it at this address. -/
structure Sender where
  service : String
  address : IpAddr
  challenge : Vector UInt8 16

def Challenges (crates : Crates) (challenge : Vector UInt8 16) (request : Request) : Prop :=
  ∃ text, request.headers.get "Apple-Challenge" = some text ∧ crates.Writes challenge.toList text

/-- There is a signature, and under it what the sender asked for, where it asked, and the MAC from
the name of the service. -/
def Sender.Accepts (crates : Crates) (recover : Bytes → Option Bytes) (sender : Sender)
    (response : Response) : Prop :=
  ∃ mac name value signature, sender.service = Mac.hex mac ++ "@" ++ name ∧
    Headers.get response.headers "Apple-Response" = some value ∧
      crates.base64DecodeNoPad value = some signature ∧
        recover signature = some (signedMessage sender.challenge.toList sender.address mac)

/-! ## One MAC for one name -/

/-- A name may have anything in it, also another address. -/
theorem mac_of_service {mac mac' : Mac} {name name' : String}
    (h : mac.hex ++ "@" ++ name = mac'.hex ++ "@" ++ name') : mac = mac' := by
  have hlist := congrArg String.toList h
  simp only [String.toList_append, List.append_assoc] at hlist
  have hhex := (List.append_inj hlist (mac.length_hex.trans mac'.length_hex.symm)).1
  exact Mac.hex_injective (String.toList_inj.mp hhex)

/-! ## One message for one challenge -/

theorem length_ipBytes (address : IpAddr) :
    (ipBytes address).length = 4 ∨ (ipBytes address).length = 16 := by
  cases address with
  | v4 octets => exact .inl octets.length_toList
  | v6 octets =>
    rw [ipBytes, toIpv4Mapped]
    split
    · left
      rw [Option.getD_some, List.length_drop, octets.length_toList]
    · right
      rw [Option.getD_none, octets.length_toList]

theorem length_signedMessage_le (challenge : Vector UInt8 16) (address : IpAddr) (mac : Mac) :
    (signedMessage challenge.toList address mac).length ≤ 48 := by
  have hip := length_ipBytes address
  simp only [signedMessage, List.length_append, List.length_replicate, Vector.length_toList]
  omega

theorem signedMessage_injective {challenge challenge' : Vector UInt8 16} {address address' : IpAddr}
    {mac mac' : Mac} (h : signedMessage challenge.toList address mac =
      signedMessage challenge'.toList address' mac') :
    challenge = challenge' ∧ ipBytes address = ipBytes address' ∧ mac = mac' := by
  have hlen := congrArg List.length h
  have hip := length_ipBytes address
  have hip' := length_ipBytes address'
  simp only [signedMessage, List.length_append, List.length_replicate,
    Vector.length_toList] at hlen
  -- an IPv4 address is padded to 32 bytes, and an IPv6 address makes it more
  have hsame : (ipBytes address).length = (ipBytes address').length := by omega
  simp only [signedMessage, List.append_assoc] at h
  obtain ⟨hchallenge, h⟩ :=
    List.append_inj h (challenge.length_toList.trans challenge'.length_toList.symm)
  obtain ⟨haddress, h⟩ := List.append_inj h hsame
  obtain ⟨hmac, -⟩ := List.append_inj h (mac.length_toList.trans mac'.length_toList.symm)
  exact ⟨Vector.toList_inj.mp hchallenge, haddress, Vector.toList_inj.mp hmac⟩

/-! ## The answer to a challenge -/

section Answer

variable {crates : Crates}

theorem appleResponse_of_challenge (hcodes : Base64Codes crates) {challenge : Vector UInt8 16}
    {text : String} (htext : crates.Writes challenge.toList text) (localIp : IpAddr) (mac : Mac) :
    appleResponse crates text localIp mac = .ok (crates.base64EncodeNoPad
      (crates.rsaSign (signedMessage challenge.toList localIp mac))) := by
  have hshort : ¬16 < challenge.toList.length := by
    rw [challenge.length_toList]
    omega
  simp only [appleResponse, hcodes.decode htext, if_neg hshort, signedMessage]

theorem signature_of_challenges (hcodes : Base64Codes crates) (config : Config) (localIp : IpAddr)
    {challenge : Vector UInt8 16} {request : Request} (h : Challenges crates challenge request) :
    (config.context crates localIp).signature request = some (crates.base64EncodeNoPad
      (crates.rsaSign (signedMessage challenge.toList localIp config.mac))) := by
  obtain ⟨text, hget, htext⟩ := h
  rw [Context.signature, hget, Option.bind_some]
  simp only [Config.context]
  rw [appleResponse_of_challenge hcodes htext]
  rfl

end Answer

theorem runs_serve_signed {ctx : Context} (hcrates : Base64Texts ctx.crates)
    {s s' : Session} {requests : List Request} {trace : Trace} {responses : List Response}
    (hmade : s.NonceMade ctx.crates) (h : Runs (ctx.serve s requests) trace (s', responses)) :
    List.Forall₂
      (fun request response =>
        Headers.get response.headers "Apple-Response" = ctx.signature request)
      requests responses := by
  induction requests generalizing s trace responses with
  | nil =>
    obtain ⟨-, hnil⟩ := runs_pure.mp h
    cases hnil
    exact .nil
  | cons request requests ih =>
    obtain ⟨_, s₁, response, _, responses, _, hdispatch, hserve, rfl⟩ :=
      Context.runs_serve_cons.mp h
    obtain ⟨⟨presented, hpresented, rfl⟩, hmade'⟩ :=
      Context.runs_dispatch_presented hcrates hmade hdispatch
    exact .cons (Context.signature_finish ctx request hpresented) (ih hmade' hserve)

/-- Over a whole connection: a sender accepts exactly the replies to its own challenge, at the
address where it connected, and from a receiver with the MAC of the one that advertised. -/
theorem Receiver.accepted_iff (crates : Crates) (hcodes : Base64Codes crates)
    (recover : Bytes → Option Bytes) (hrecover : ∀ message, message.length ≤ 48 →
      recover (crates.rsaSign message) = some message)
    (advertised receiver : Receiver) (advertisement : Advertisement)
    (hpublish : advertised.publish = some advertisement) (sender : Sender)
    (hservice : sender.service = advertisement.name) (observer : Bool) (peerIp localIp : IpAddr)
    (requests : List Request) (trace : Trace) (s : Session) (responses : List Response)
    (hrun : Runs ((receiver.config.context crates localIp).serve (.new observer peerIp) requests)
      trace (s, responses)) :
    List.Forall₂ (fun request response =>
      (request.headers.get "Apple-Challenge" = none → ¬sender.Accepts crates recover response) ∧
        ∀ challenge, Challenges crates challenge request →
          (sender.Accepts crates recover response ↔ challenge = sender.challenge ∧
            ipBytes localIp = ipBytes sender.address ∧
              receiver.config.mac = advertised.config.mac)) requests responses := by
  have hfresh : (Session.new observer peerIp).NonceMade crates := by
    intro nonce hsome
    cases hsome
  have hname : sender.service = advertised.config.mac.hex ++ "@" ++ advertised.config.name := by
    rw [hservice]
    unfold publish at hpublish
    split at hpublish
    · cases hpublish
      rfl
    · cases hpublish
  refine (runs_serve_signed hcodes.toBase64Texts hfresh hrun).imp fun request response hsigned => ?_
  constructor
  · rintro hnone ⟨mac, name, value, signature, -, hvalue, -⟩
    rw [hsigned, Context.signature, hnone] at hvalue
    cases hvalue
  · intro challenge hchallenge
    rw [signature_of_challenges hcodes _ _ hchallenge] at hsigned
    have hrecover := hrecover _
      (length_signedMessage_le challenge localIp receiver.config.mac)
    constructor
    · rintro ⟨mac, name, value, signature, hservice', hvalue, hdecode, hmessage⟩
      obtain rfl := Option.some.inj (hsigned.symm.trans hvalue)
      obtain rfl := Option.some.inj ((hcodes.decode_encode _).symm.trans hdecode)
      have hsame := Option.some.inj (hrecover.symm.trans hmessage)
      obtain ⟨hchallenge, haddress, hmac⟩ := signedMessage_injective hsame
      exact ⟨hchallenge, haddress, hmac.trans (mac_of_service (hservice'.symm.trans hname))⟩
    · rintro ⟨rfl, haddress, hmac⟩
      refine ⟨advertised.config.mac, advertised.config.name, _, _, hname, hsigned,
        hcodes.decode_encode _, hrecover.trans ?_⟩
      rw [hmac, signedMessage, haddress, signedMessage]

/-! ## A receiver in the office -/

def office : Receiver := ReceiverBuilder.build { name := "Office@2" } (some Mac.listed)

def officeSender : Sender := ⟨"AA0000000002@Office@2", openContext.localIp, .replicate 16 7⟩

def officeMessage : Bytes :=
  signedMessage officeSender.challenge.toList officeSender.address office.config.mac

/-- PKCS#1 v1.5 of that message with the key of `airport.pem`. -/
@[irreducible] def officeSignature : Bytes :=
  [0xc8, 0x09, 0x0c, 0x16, 0xd0, 0xe3, 0xe3, 0xe5, 0xe1, 0xc5, 0x11, 0x0b, 0x4c, 0xea, 0x90, 0x5b,
    0xa4, 0x10, 0x8f, 0x53, 0x6b, 0x68, 0x6f, 0xf6, 0xd2, 0xf7, 0x92, 0xd3, 0x15, 0xcc, 0x14, 0xfc,
    0xd2, 0xf4, 0x3e, 0xf3, 0xf6, 0xc4, 0xea, 0xdb, 0x08, 0x03, 0x36, 0x45, 0x18, 0x47, 0x79, 0x84,
    0x73, 0xc5, 0xb8, 0x84, 0xe2, 0x13, 0xc1, 0xd5, 0xe8, 0x79, 0x27, 0x8e, 0x8e, 0x9c, 0x77, 0xf6,
    0xc0, 0xf0, 0x11, 0x6d, 0xeb, 0x8d, 0xcf, 0xcc, 0x1e, 0xf1, 0x9e, 0x60, 0x26, 0x96, 0xa2, 0x1e,
    0x94, 0x64, 0xaa, 0x23, 0x60, 0x1c, 0x77, 0x12, 0x4c, 0xd0, 0x55, 0xbc, 0xde, 0x26, 0x85, 0xf4,
    0x92, 0x41, 0x93, 0x74, 0x59, 0x9c, 0x3b, 0x3b, 0x99, 0xe2, 0x55, 0xe5, 0x76, 0xf6, 0x28, 0x7f,
    0x48, 0x6b, 0xb0, 0x5a, 0x06, 0xf7, 0xa5, 0x90, 0x55, 0xe4, 0xd6, 0xef, 0x08, 0x6e, 0xf1, 0xc5,
    0xd5, 0xd3, 0xa2, 0xe0, 0x55, 0xba, 0xff, 0xb7, 0xe3, 0xd8, 0xd5, 0x9d, 0xe5, 0xfb, 0x5a, 0xda,
    0x20, 0x70, 0xca, 0x01, 0xe6, 0x0d, 0xc9, 0x1d, 0xd2, 0x0a, 0x6d, 0xae, 0x54, 0xd8, 0xfe, 0xf8,
    0x55, 0x0d, 0xb5, 0xcb, 0x48, 0xef, 0x71, 0xe3, 0xb1, 0xb0, 0x9a, 0x69, 0x47, 0x9a, 0x03, 0xe8,
    0x2d, 0xf1, 0x22, 0x26, 0xaf, 0xc7, 0xc5, 0xa0, 0x50, 0x36, 0xb0, 0xff, 0xea, 0x9b, 0xc6, 0x75,
    0xd9, 0x9c, 0x16, 0x2a, 0x96, 0x25, 0xb1, 0x34, 0x31, 0x88, 0x9a, 0xf1, 0xa4, 0x0a, 0xc0, 0x2d,
    0x14, 0xc1, 0x02, 0x89, 0x28, 0xa7, 0xd7, 0xb7, 0x15, 0xf7, 0x70, 0x08, 0x78, 0xfc, 0x80, 0x9d,
    0x10, 0x25, 0xa0, 0x35, 0x8b, 0x0f, 0x34, 0x29, 0x84, 0x92, 0x3c, 0xf4, 0x10, 0xd2, 0x97, 0x08,
    0x89, 0x6a, 0x54, 0xba, 0xc5, 0x03, 0xb9, 0xc9, 0xa8, 0x65, 0x28, 0x89, 0x5b, 0xf1, 0x10, 0x37]

/-- The key at the message of the office; other messages have a signature of no strength. -/
def officeSign (message : Bytes) : Bytes :=
  if message = officeMessage then officeSignature else 0 :: message

def officeRecover (signature : Bytes) : Option Bytes :=
  if signature = officeSignature then some officeMessage else some signature.tail

theorem officeRecover_sign (message : Bytes) (h : message.length ≤ 48) :
    officeRecover (officeSign message) = some message := by
  unfold officeSign
  split
  · rename_i hoffice
    rw [hoffice, officeRecover, if_pos rfl]
  · have hshort : (0 :: message : Bytes) ≠ officeSignature := by
      intro heq
      have hlong : officeSignature.length = 256 := by decide +kernel
      rw [← heq, List.length_cons] at hlong
      omega
    rw [officeRecover, if_neg hshort, List.tail_cons]

def officeCrates : Crates := { openContext.crates.withBase64 with rsaSign := officeSign }

theorem officeCrates_codes : Base64Codes officeCrates :=
  Crates.codes_withBase64 { openContext.crates with rsaSign := officeSign }

def officeRequest : Request :=
  ⟨"OPTIONS", "*", [("apple-challenge", "BwcHBwcHBwcHBwcHBwcHBw==")], []⟩

def officeContext : Context :=
  office.config.context officeCrates
    (.v6 #v[0, 0, 0, 0, 0, 0, 0, 0, 0, 0, 255, 255, 192, 168, 1, 10])

theorem Receiver.accepted_iff_office : ∃ trace s response,
    Runs (officeContext.serve client [officeRequest]) trace (s, [response]) ∧
      officeSender.Accepts officeCrates officeRecover response := by
  have hrun : ∃ trace s response,
      Runs (officeContext.serve client [officeRequest]) trace (s, [response]) :=
    ⟨_, _, _, runs_execute obliging _⟩
  obtain ⟨trace, s, response, hrun⟩ := hrun
  have haccepted := accepted_iff officeCrates officeCrates_codes officeRecover officeRecover_sign
    office office _ rfl officeSender (by decide +kernel) false _ _ _ _ _ _ hrun
  cases haccepted with
  | cons h _ =>
    refine ⟨trace, s, response, hrun, (h.2 (.replicate 16 7) ?_).mpr ⟨rfl, ?_, rfl⟩⟩
    · exact ⟨_, rfl, .inr (by decide +kernel)⟩
    · decide +kernel

end OpenAirplay.Facade
