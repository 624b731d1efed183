import Fenrir.Gateway.Identity
import Fenrir.Lib.Results

/-! # The address a client is known by

`config/edge.rs` and `infra/http/proxy_headers.rs`: behind a reverse proxy the host
learns the client's address from one configured header, and believes it only from a
peer inside the trusted blocks. Every other header with an address is dropped, and
`X-Forwarded-For` is written anew. -/

namespace Fenrir.Gateway

open Option Nat String

/-! ## Addresses -/

inductive IpAddr where
  | v4 (bits : BitVec 32)
  | v6 (bits : BitVec 128)
  deriving DecidableEq

/-- `IpAddr::to_canonical`: a mapped address is the one it maps. -/
def IpAddr.toCanonical : IpAddr → IpAddr
  | .v4 bits => .v4 bits
  | .v6 bits => if bits >>> 32 = 0xffff#128 then .v4 (bits.setWidth 32) else .v6 bits

theorem IpAddr.toCanonical_toCanonical (a : IpAddr) : a.toCanonical.toCanonical = a.toCanonical := by
  cases a with
  | v4 bits => rfl
  | v6 bits =>
    rw [toCanonical]
    split
    · rfl
    · rename_i hmap
      rw [toCanonical, if_neg hmap]

/-- Addresses as text, `Display` and `FromStr` of the standard library. -/
structure IpText where
  display : IpAddr → String
  parse : String → Option IpAddr
  parse_display : ∀ a, parse (display a) = some a

/-! ## The policy -/

structure IpCidr where
  network : IpAddr
  prefixLength : Nat
  deriving DecidableEq

def prefixMatch (net ip bits prefixLength : Nat) : Bool :=
  if prefixLength == 0 then true
  else net >>> (bits - prefixLength) == ip >>> (bits - prefixLength)

def IpCidr.contains (self : IpCidr) (ip : IpAddr) : Bool :=
  match self.network, ip.toCanonical with
  | .v4 net, .v4 ip => prefixMatch net.toNat ip.toNat 32 self.prefixLength
  | .v6 net, .v6 ip => prefixMatch net.toNat ip.toNat 128 self.prefixLength
  | _, _ => false

/-- `ClientIpPolicy` of `config/edge.rs`. -/
structure EdgePolicy where
  header : Option String
  trusted : List IpCidr

namespace EdgePolicy

def isTrustedPeer (self : EdgePolicy) (peer : IpAddr) : Bool :=
  self.trusted.any (·.contains peer)

theorem isTrustedPeer_toCanonical (self : EdgePolicy) (peer : IpAddr) :
    self.isTrustedPeer peer.toCanonical = self.isTrustedPeer peer := by
  simp only [isTrustedPeer, IpCidr.contains, IpAddr.toCanonical_toCanonical]

section

variable (self : EdgePolicy) (ip : IpText)

def addressOf (value : Bytes) : Option IpAddr :=
  (fromUTF8? ⟨value.toArray⟩).bind fun text => ip.parse (Text.trim text)

def resolve (peer : Option IpAddr) (values : List Bytes) : Option IpAddr :=
  let peer := peer.map IpAddr.toCanonical
  if self.header.isNone then peer
  else
    match peer.filter self.isTrustedPeer with
    | none => peer
    | some proxy =>
      match values with
      | [value] =>
        match addressOf ip value with
        | none => some proxy
        | some client => some client.toCanonical
      | _ => some proxy

/-- The policy as the gateway asks it, by the texts of addresses. -/
def clientIp : ClientIpPolicy where
  header := self.header
  resolve peer values := (self.resolve ip (peer.bind ip.parse) values).map ip.display

def headerValues (headers : HeaderMap) : List Bytes :=
  (self.header.map headers.getAll).getD []

end

end EdgePolicy

def printedPeer (ip : IpText) (peer : Option IpAddr) : Option String :=
  peer.map fun a => ip.display a.toCanonical

section

variable {ip : IpText} {policy : EdgePolicy} {peer : Option IpAddr} {values : List Bytes}

theorem clientIp_resolve : (policy.clientIp ip).resolve (printedPeer ip peer) values =
    (policy.resolve ip peer values).map ip.display := by
  have hpe : ((printedPeer ip peer).bind ip.parse).map IpAddr.toCanonical =
      peer.map IpAddr.toCanonical := by
    cases peer with
    | none => rfl
    | some a =>
      show (ip.parse (ip.display a.toCanonical)).map IpAddr.toCanonical = some a.toCanonical
      rw [ip.parse_display, map_some, IpAddr.toCanonical_toCanonical]
  show (policy.resolve ip ((printedPeer ip peer).bind ip.parse) values).map ip.display = _
  rw [EdgePolicy.resolve, EdgePolicy.resolve, hpe]

theorem resolve_untrusted (h : ∀ p, peer = some p → policy.isTrustedPeer p = false) :
    policy.resolve ip peer values = peer.map IpAddr.toCanonical := by
  have hfil : (peer.map IpAddr.toCanonical).filter policy.isTrustedPeer = none := by
    cases peer with
    | none => rfl
    | some p =>
      rw [map_some, filter_some, policy.isTrustedPeer_toCanonical, h p rfl]
      rfl
  rw [EdgePolicy.resolve, hfil]
  dsimp only
  split <;> rfl

/-- What is believed from a trusted proxy: one value that is one address. -/
def Believed (ip : IpText) (policy : EdgePolicy) (headers : HeaderMap) (client : IpAddr) : Prop :=
  ∃ name value address, policy.header = some name ∧ headers.getAll name = [value] ∧
    EdgePolicy.addressOf ip value = some address ∧ client = address.toCanonical

variable (ip policy) in
theorem resolve_cases (p : IpAddr) (headers : HeaderMap) :
    ∃ client, policy.resolve ip (some p) (policy.headerValues headers) = some client ∧
      (client = p.toCanonical ∨
        policy.isTrustedPeer p = true ∧ Believed ip policy headers client) := by
  rw [EdgePolicy.resolve]
  cases hhea : policy.header with
  | none => exact ⟨p.toCanonical, rfl, .inl rfl⟩
  | some name =>
    rw [if_neg (by simp), map_some]
    cases hfil : (some p.toCanonical).filter policy.isTrustedPeer with
    | none => exact ⟨p.toCanonical, rfl, .inl rfl⟩
    | some proxy =>
      obtain ⟨rfl, htru⟩ : p.toCanonical = proxy ∧ policy.isTrustedPeer p = true := by
        rw [filter_some, policy.isTrustedPeer_toCanonical] at hfil
        split at hfil
        · rename_i htru
          exact ⟨some.inj hfil, htru⟩
        · cases hfil
      have hva : policy.headerValues headers = headers.getAll name := by
        rw [EdgePolicy.headerValues, hhea]
        rfl
      rw [hva]
      dsimp only
      split
      · rename_i value hval
        cases hadd : EdgePolicy.addressOf ip value with
        | none => exact ⟨p.toCanonical, rfl, .inl rfl⟩
        | some address =>
          exact ⟨address.toCanonical, rfl, .inr ⟨htru, name, value, address, hhea, hval, hadd, rfl⟩⟩
      · exact ⟨p.toCanonical, rfl, .inl rfl⟩

end

/-! ## A request from outside -/

theorem admission_ok {env : GatewayEnv} {request : GatewayRequest} {adm : Admitted}
    (h : admission env request = .ok adm) : env.decode request.serviceParam = some adm.serviceId ∧
      ∃ access security, requestClaims env adm.serviceId access security request.headers =
        .ok adm.claims := by
  simp only [admission, bind, Except.bind, pure, Except.pure] at h
  -- one split for each check, in the order of the code
  split at h
  · cases h
  split at h
  · cases h
  split at h
  swap
  · cases h
  rename_i serviceId hdec
  split at h
  swap
  · cases h
  rename_i snapshot _
  split at h
  · cases h
  split at h
  · cases h
  rename_i access _
  split at h
  · cases h
  rename_i claims hcla
  split at h
  · cases h
  split at h
  swap
  · cases h
  split at h
  · cases h
  split at h
  · cases h
  cases h
  exact ⟨hdec, access, snapshot.security, hcla⟩

/-- A request from the peer that carries neither the host's edge secret nor a valid
service token. -/
structure Outside (ip : IpText) (policy : EdgePolicy) (peer : Option IpAddr) (env : GatewayEnv)
    (request : GatewayRequest) : Prop where
  policy : env.clientIp = policy.clientIp ip
  peer : request.peer = printedPeer ip peer
  noSecret : request.headers.get edgeHopHeader ≠ some env.edgeHopSecret
  noToken : ∀ token, extractOptionalGatewayToken env request.headers = .ok (some token) →
    (env.validateServiceToken token).isOk = false

section

variable {ip : IpText} {policy : EdgePolicy} {peer : Option IpAddr} {env : GatewayEnv}
  {request : GatewayRequest}

variable {serviceId : String} {headers : HeaderMap} {kind : GatewayRequestKind}

theorem requestClaims_none {access : ServiceIngressAccess}
    {security : Option ServiceSecurityMetadata} {claims : Option DelegatedTokenClaims}
    (hno : ∀ token, extractOptionalGatewayToken env headers = .ok (some token) →
      (env.validateServiceToken token).isOk = false)
    (h : requestClaims env serviceId access security headers = .ok claims) : claims = none := by
  cases access with
  | internalAccess =>
    obtain ⟨token, htok, h⟩ := Results.bind_eq_ok h
    rw [extractGatewayToken] at htok
    split at htok
    · cases htok
    · rename_i hopt
      cases htok
      have hinv := hno token hopt
      split at h
      · cases h
      · rename_i hval
        rw [hval] at hinv
        cases hinv
    · cases htok
  | publicAccess =>
    obtain ⟨found, htok, h⟩ := Results.bind_eq_ok h
    cases found with
    | none => exact (Except.ok.inj h).symm
    | some token =>
      have hinv := hno token htok
      dsimp only at h
      split at h
      · rename_i hval
        rw [hval] at hinv
        cases hinv
      · split at h
        · exact (Except.ok.inj h).symm
        · cases h

/-- A header of the client that is sent on for a request from outside. -/
def passes (policy : ClientIpPolicy) (name : String) : Bool :=
  !(name == hostHeader || name == edgeHopHeader || name == forwardedForHeader
    || policy.isAddressHeader name)

def outsideHeaders (ip : IpText) (policy : EdgePolicy) (peer : Option IpAddr) (serviceId : String)
    (kind : GatewayRequestKind) (headers : HeaderMap) : HeaderMap :=
  hostHeaders ⟨serviceId, none, [], "", []⟩ kind
    ++ headers.filter (passes (policy.clientIp ip) ·.1)
    ++ ((policy.resolve ip peer (policy.headerValues headers)).map fun client =>
        (forwardedForHeader, Text.utf8 (ip.display client))).toList

/-- **WHAT IS SENT ON** for a request from outside. -/
theorem outside_headers (h : Outside ip policy peer env request) {upstream : UpstreamRequest}
    (hse : upstream ∈ (gatewayProxy env request).1) :
    ∃ serviceId, env.decode request.serviceParam = some serviceId ∧
      upstream.headers = outsideHeaders ip policy peer serviceId request.kind request.headers := by
  cases hadm : admission env request with
  | error err =>
    rw [gatewayProxy_refused hadm] at hse
    cases hse
  | ok adm =>
    obtain ⟨target, -, hbui⟩ := gatewayProxy_built hadm hse
    obtain ⟨hid, access, security, hcla⟩ := admission_ok hadm
    have hno : adm.claims = none := requestClaims_none h.noToken hcla
    have htru : trustedHop env request adm.claims = false := by
      rw [trustedHop, hno, isSome_none, Bool.false_or]
      exact beq_false_of_ne h.noSecret
    have hfor : gatewayForwardedFor env request false =
        (policy.resolve ip peer (policy.headerValues request.headers)).map ip.display := by
      rw [gatewayForwardedFor, if_neg (by decide), h.policy, h.peer]
      exact clientIp_resolve
    have hfil : request.headers.filter (forwardsHeader env false ·.1) =
        request.headers.filter (passes (policy.clientIp ip) ·.1) := by
      refine List.filter_congr fun field _ => ?_
      rw [forwardsHeader, h.policy]
      rfl
    have hown : hostHeaders adm request.kind =
        hostHeaders ⟨adm.serviceId, none, [], "", []⟩ request.kind := by
      rw [hostHeaders, hostHeaders, hno]
    refine ⟨adm.serviceId, hid, ?_⟩
    simp only [buildRequest, letThrough, htru, hfor, hfil, hown] at hbui
    split at hbui
    · rw [← some.inj hbui, outsideHeaders, Option.map_map, Option.map_map]
      rfl
    · cases hbui

theorem outsideHeaders_forwarded :
    (outsideHeaders ip policy peer serviceId kind headers).getAll forwardedForHeader =
      ((policy.resolve ip peer (policy.headerValues headers)).map fun client =>
        Text.utf8 (ip.display client)).toList := by
  have hown : (hostHeaders ⟨serviceId, none, [], "", []⟩ kind).getAll forwardedForHeader = [] := by
    rw [getAll_eq_nil_iff]
    simp [hostHeaders, forwardedForHeader]
  have hcli :
      HeaderMap.getAll (headers.filter (passes (policy.clientIp ip) ·.1)) forwardedForHeader = [] := by
    rw [getAll_eq_nil_iff]
    intro field hfie heq
    obtain ⟨-, hpas⟩ := List.mem_filter.mp hfie
    rw [heq] at hpas
    simp [passes] at hpas
  rw [outsideHeaders, getAll_append, getAll_append, hown, hcli]
  cases policy.resolve ip peer (policy.headerValues headers) with
  | none => rfl
  | some client => simp [HeaderMap.getAll]

theorem outsideHeaders_congr {headers' : HeaderMap}
    (hdif : headers.filter (!(policy.clientIp ip).isAddressHeader ·.1) =
      headers'.filter (!(policy.clientIp ip).isAddressHeader ·.1))
    (hcli : policy.resolve ip peer (policy.headerValues headers) =
      policy.resolve ip peer (policy.headerValues headers')) :
    outsideHeaders ip policy peer serviceId kind headers =
      outsideHeaders ip policy peer serviceId kind headers' := by
  have hpas : ∀ hs : HeaderMap, hs.filter (passes (policy.clientIp ip) ·.1) =
      (hs.filter (!(policy.clientIp ip).isAddressHeader ·.1)).filter
        (passes (policy.clientIp ip) ·.1) := by
    intro hs
    rw [List.filter_filter]
    refine List.filter_congr fun field _ => ?_
    rw [passes]
    cases (policy.clientIp ip).isAddressHeader field.1 <;> simp
  rw [outsideHeaders, outsideHeaders, hpas headers, hpas headers', hdif, hcli]

end

/-- **CLIENT ADDRESSES CANNOT BE SPOOFED.** Two requests from one peer, from outside, that
differ only in address headers are sent on with the same headers if the peer is not a
trusted proxy, and also if the configured header has the same values. From a trusted
proxy the client is the peer, or the one address in the one value of that header. -/
theorem client_address_not_spoofed (ip : IpText) (policy : EdgePolicy) (peer : Option IpAddr)
    (env env' : GatewayEnv) (hdecode : env.decode = env'.decode) (request : GatewayRequest)
    (headers : HeaderMap) (h : Outside ip policy peer env request)
    (h' : Outside ip policy peer env' { request with headers })
    (hdiffer : request.headers.filter (!(policy.clientIp ip).isAddressHeader ·.1) =
      headers.filter (!(policy.clientIp ip).isAddressHeader ·.1)) :
    ∀ upstream ∈ (gatewayProxy env request).1,
      ∀ upstream' ∈ (gatewayProxy env' { request with headers }).1,
        ((∀ p, peer = some p → policy.isTrustedPeer p = false) →
          upstream.headers = upstream'.headers) ∧
        (policy.headerValues request.headers = policy.headerValues headers →
          upstream.headers = upstream'.headers) ∧
        (∀ p, peer = some p → ∃ client,
          upstream.headers.getAll forwardedForHeader = [Text.utf8 (ip.display client)] ∧
            (client = p.toCanonical ∨
              policy.isTrustedPeer p = true ∧ Believed ip policy request.headers client)) := by
  intro upstream hse upstream' hse'
  obtain ⟨serviceId, hid, hhea⟩ := outside_headers h hse
  obtain ⟨serviceId', hid', hhe'⟩ := outside_headers h' hse'
  obtain rfl : serviceId = serviceId' := by
    rw [hdecode] at hid
    exact some.inj (hid.symm.trans hid')
  rw [hhea, hhe']
  refine ⟨?_, ?_, ?_⟩
  · intro hunt
    refine outsideHeaders_congr hdiffer ?_
    rw [resolve_untrusted hunt, resolve_untrusted hunt]
  · intro hval
    exact outsideHeaders_congr hdiffer (by rw [hval])
  · rintro p rfl
    obtain ⟨client, hres, hcas⟩ := resolve_cases ip policy p request.headers
    refine ⟨client, ?_, hcas⟩
    rw [outsideHeaders_forwarded, hres]
    rfl

/-- Addresses in decimal, with a mark for their family. -/
def decimalText : IpText where
  display
    | .v4 bits => ofList ('4' :: toDigits 10 bits.toNat)
    | .v6 bits => ofList ('6' :: toDigits 10 bits.toNat)
  parse text :=
    match text.toList with
    | '4' :: digits => some (.v4 (BitVec.ofNat 32 (ofDigitChars 10 digits 0)))
    | '6' :: digits => some (.v6 (BitVec.ofNat 128 (ofDigitChars 10 digits 0)))
    | _ => none
  parse_display a := by
    cases a with
    | v4 bits =>
      simp only [toList_ofList, ofDigitChars_ten_toDigits, BitVec.ofNat_toNat, BitVec.setWidth_eq]
    | v6 bits =>
      simp only [toList_ofList, ofDigitChars_ten_toDigits, BitVec.ofNat_toNat, BitVec.setWidth_eq]

/-- `x-real-ip` is believed from `10.0.0.0/8`. -/
def samplePolicy : EdgePolicy := ⟨some "x-real-ip", [⟨.v4 0x0a000000#32, 8⟩]⟩

/-- `sampleEnv` behind a reverse proxy. -/
def edgeEnv : GatewayEnv := { sampleEnv with clientIp := samplePolicy.clientIp decimalText }

/-- A request from `203.0.113.9`. -/
def honestRequest : GatewayRequest :=
  { forgedRequest with
    peer := printedPeer decimalText (some (.v4 0xcb007109#32))
    headers := [("accept", Text.utf8 "text/html")] }

def spoofedHeaders : HeaderMap :=
  [("x-forwarded-for", Text.utf8 "4167772161"), ("accept", Text.utf8 "text/html"),
    ("x-real-ip", Text.utf8 "4167772161")]

theorem client_address_not_spoofed_outside : (gatewayProxy edgeEnv honestRequest).1.length = 1 ∧
      (gatewayProxy edgeEnv { honestRequest with headers := spoofedHeaders }).1.length = 1 ∧
      ∀ upstream ∈ (gatewayProxy edgeEnv honestRequest).1,
        ∀ upstream' ∈ (gatewayProxy edgeEnv { honestRequest with headers := spoofedHeaders }).1,
          upstream.headers = upstream'.headers := by
  refine ⟨by decide +kernel, by decide +kernel, ?_⟩
  intro upstream hse upstream' hse'
  have hout : Outside decimalText samplePolicy (some (.v4 0xcb007109#32)) edgeEnv
      honestRequest :=
    ⟨rfl, rfl, by decide, fun _ _ => rfl⟩
  have hou' : Outside decimalText samplePolicy (some (.v4 0xcb007109#32)) edgeEnv
      { honestRequest with headers := spoofedHeaders } :=
    ⟨rfl, rfl, by decide, fun _ _ => rfl⟩
  refine (client_address_not_spoofed decimalText samplePolicy _ edgeEnv edgeEnv rfl honestRequest
    spoofedHeaders hout hou' (by decide +kernel) upstream hse upstream' hse').1 ?_
  intro p hp
  cases hp
  decide

/-! ## Address blocks -/

/-- `u8::from_str`: decimal digits, a sign allowed in front, below 256. -/
def parseU8 (text : String) : Option Nat :=
  let digits := (Text.stripStart ['+'] text.toList).getD text.toList
  if digits ≠ [] ∧ digits.all Char.isDigit ∧ ofDigitChars 10 digits 0 < 256 then
    some (ofDigitChars 10 digits 0)
  else none

def IpAddr.width : IpAddr → Nat
  | .v4 _ => 32
  | .v6 _ => 128

/-- The bit at `i`, the most significant one first. -/
def IpAddr.bit : IpAddr → Nat → Bool
  | .v4 bits, i => bits.getMsbD i
  | .v6 bits, i => bits.getMsbD i

namespace IpCidr

/-- `MAX.checked_shl(shift).unwrap_or(0)`. -/
def mask (w shift : Nat) : BitVec w :=
  if shift < w then BitVec.allOnes w <<< shift else 0#w

def masked (self : IpCidr) : IpAddr :=
  match self.network with
  | .v4 net => .v4 (net &&& mask 32 (32 - self.prefixLength))
  | .v6 net => .v6 (net &&& mask 128 (128 - self.prefixLength))

/-- The prefix length after the slash, at most `max`. -/
def prefixOf (max : Nat) : Option String → Except String Nat
  | none => .ok max
  | some value =>
    match (parseU8 (Text.trim value)).filter (· ≤ max) with
    | some n => .ok n
    | none => .error ("prefix length must be 0..=" ++ toString max)

def fromStr (ip : IpText) (raw : String) : Except String IpCidr :=
  let (addr, suffix) := match Text.splitOnce ['/'] raw.toList with
    | some (addr, rest) => (ofList addr, some (ofList rest))
    | none => (raw, none)
  match ip.parse (Text.trim addr) with
  | none => .error "not an IP address"
  | some a =>
    match prefixOf a.toCanonical.width suffix with
    | .error message => .error message
    | .ok n =>
      let cidr : IpCidr := ⟨a.toCanonical, n⟩
      if cidr.network ≠ cidr.masked then .error "host bits are set below the prefix length"
      else .ok cidr

end IpCidr

variable {p w : Nat}

theorem shiftRight_eq_iff_getMsbD (x y : BitVec w) (hp : p ≤ w) :
    x.toNat >>> (w - p) = y.toNat >>> (w - p) ↔ ∀ i < p, x.getMsbD i = y.getMsbD i := by
  constructor
  · intro h i hi
    have hbit : ∀ z : BitVec w, z.getMsbD i = (z.toNat >>> (w - p)).testBit (p - 1 - i) := by
      intro z
      rw [BitVec.getMsbD_eq_getLsbD, testBit_shiftRight, BitVec.testBit_toNat,
        decide_eq_true (show i < w by omega), Bool.true_and,
        show w - 1 - i = w - p + (p - 1 - i) by omega]
    rw [hbit x, hbit y, h]
  · intro h
    refine eq_of_testBit_eq fun i => ?_
    rw [testBit_shiftRight, testBit_shiftRight, BitVec.testBit_toNat, BitVec.testBit_toNat]
    by_cases hi : i < p
    · have := h (p - 1 - i) (by omega)
      rwa [BitVec.getMsbD_eq_getLsbD, BitVec.getMsbD_eq_getLsbD,
        decide_eq_true (show p - 1 - i < w by omega), Bool.true_and, Bool.true_and,
        show w - 1 - (p - 1 - i) = w - p + i by omega] at this
    · rw [BitVec.getLsbD_of_ge x _ (by omega), BitVec.getLsbD_of_ge y _ (by omega)]

theorem prefixMatch_iff (x y : BitVec w) (hp : p ≤ w) :
    prefixMatch x.toNat y.toNat w p = true ↔ ∀ i < p, x.getMsbD i = y.getMsbD i := by
  rw [prefixMatch]
  by_cases h0 : p = 0
  · subst h0
    simp
  · rw [if_neg (by simpa using h0), beq_iff_eq, shiftRight_eq_iff_getMsbD x y hp]

theorem IpCidr.contains_iff {self : IpCidr} (h : self.prefixLength ≤ self.network.width)
    (a : IpAddr) : self.contains a = true ↔ a.toCanonical.width = self.network.width ∧
      ∀ i < self.prefixLength, self.network.bit i = a.toCanonical.bit i := by
  obtain ⟨network, p⟩ := self
  rw [contains]
  cases network with
  | v4 net =>
    cases a.toCanonical with
    | v4 bits => simpa [IpAddr.width, IpAddr.bit] using prefixMatch_iff net bits h
    | v6 bits => simp [IpAddr.width]
  | v6 net =>
    cases a.toCanonical with
    | v4 bits => simp [IpAddr.width]
    | v6 bits => simpa [IpAddr.width, IpAddr.bit] using prefixMatch_iff net bits h

theorem IpCidr.prefixOf_le {max n : Nat} {suffix : Option String}
    (h : prefixOf max suffix = .ok n) : n ≤ max := by
  cases suffix with
  | none =>
    cases h
    exact le_rfl
  | some value =>
    rw [prefixOf] at h
    split at h
    · rename_i m hm
      cases h
      exact of_decide_eq_true (Option.filter_eq_some_iff.mp hm).2
    · cases h

/-- What the parser accepts: a canonical network, and a prefix that fits its family. -/
theorem IpCidr.fromStr_ok {ip : IpText} {raw : String} {cidr : IpCidr}
    (h : fromStr ip raw = .ok cidr) :
    cidr.network.toCanonical = cidr.network ∧ cidr.prefixLength ≤ cidr.network.width := by
  rw [fromStr] at h
  dsimp only at h
  split at h
  · cases h
  · rename_i a _
    split at h
    · cases h
    · rename_i n hn
      split at h
      · cases h
      · cases h
        exact ⟨IpAddr.toCanonical_toCanonical a, prefixOf_le hn⟩

/-- **A BLOCK IS ITS FIRST BITS**: a parsed block has exactly the addresses of its family
that agree with the network on the first bits; the subtraction and the shift of
`prefix_match` stay in range, and the prefix 0 is the whole family. -/
theorem parsed_block_exact (ip : IpText) (raw : String) (cidr : IpCidr)
    (h : IpCidr.fromStr ip raw = .ok cidr) (a : IpAddr) :
    (cidr.contains a = true ↔ a.toCanonical.width = cidr.network.toCanonical.width ∧
      ∀ i < cidr.prefixLength, cidr.network.toCanonical.bit i = a.toCanonical.bit i) ∧
    cidr.prefixLength ≤ cidr.network.width ∧
    (cidr.prefixLength ≠ 0 → cidr.network.width - cidr.prefixLength < 128) ∧
    (cidr.prefixLength = 0 → a.toCanonical.width = cidr.network.width → cidr.contains a = true) := by
  obtain ⟨hcan, hp⟩ := IpCidr.fromStr_ok h
  have hw : cidr.network.width ≤ 128 := by
    cases cidr.network with
    | v4 bits => exact show 32 ≤ 128 by omega
    | v6 bits => exact le_rfl
  rw [hcan]
  refine ⟨IpCidr.contains_iff hp a, hp, by omega, ?_⟩
  intro h0 hfam
  refine (IpCidr.contains_iff hp a).mpr ⟨hfam, ?_⟩
  intro i hi
  omega

/-- `::ffff:10.1.2.3` is in the block `10.0.0.0/8`. -/
theorem parsed_block_exact_mapped :
    IpCidr.fromStr decimalText "4167772160/8" = .ok ⟨.v4 0x0a000000#32, 8⟩ ∧
      (IpCidr.contains ⟨.v4 0x0a000000#32, 8⟩ (.v6 0xffff0a010203#128) = true ↔
        (IpAddr.v6 0xffff0a010203#128).toCanonical.width = 32 ∧
          ∀ i < 8, (IpAddr.v4 0x0a000000#32).bit i =
            (IpAddr.v6 0xffff0a010203#128).toCanonical.bit i) := by
  have hpar : IpCidr.fromStr decimalText "4167772160/8" = .ok ⟨.v4 0x0a000000#32, 8⟩ := by
    decide +kernel
  exact ⟨hpar, (parsed_block_exact decimalText _ _ hpar _).1⟩

/-! ## Hop-by-hop headers

`infra/http/proxy_headers.rs`, and the header loops of the host's three proxies: the
gateway, the proxy of static modules, and the static-site runtime's own edge. -/

section

variable (headers : HeaderMap)

/-- `HOP_BY_HOP`. -/
def hopByHopHeaders : List String :=
  ["connection", "keep-alive", "proxy-connection", "te", "trailer", "transfer-encoding", "upgrade"]

/-- The headers that the message's own `Connection` headers name. -/
def listedHops : List String :=
  (forwardedEntries (headers.getAll "connection")).map Text.toAsciiLowercase

/-- `HopByHop::contains`. -/
def isHopByHop (name : String) : Bool :=
  hopByHopHeaders.contains name || (Text.stripStart "proxy-".toList name.toList).isSome
    || (listedHops headers).contains name

/-- The client's headers that `proxy_static_module_impl` copies. -/
def staticModuleCopied : HeaderMap :=
  headers.filter fun field => !(field.1 == hostHeader)

/-- The client's headers that `static_gateway_proxy_handler` copies. -/
def staticEdgeCopied (clientIp : ClientIpPolicy) (headers : HeaderMap) : HeaderMap :=
  headers.filter fun field =>
    !(field.1 == hostHeader || field.1 == "accept-encoding" || field.1 == edgeHopHeader
      || clientIp.isAddressHeader field.1 || isHopByHop headers field.1)

/-- The headers of a response that `convert_upstream_response` and
`static_gateway_proxy_handler` copy. -/
def responseCopied : HeaderMap :=
  headers.filter fun field => !isHopByHop headers field.1

/-- None of the copied headers is of one connection only. -/
def HopsStay (copied : HeaderMap) : Prop :=
  ∀ field ∈ copied, isHopByHop headers field.1 = false

end

/-- **HOP BY HOP**: the three proxies keep the headers of one connection to themselves, in
both directions, iff the request has none but `Host`; the edge and the responses always
do. -/
theorem hops_stay_iff (env : GatewayEnv) (request : GatewayRequest)
    (claims : Option DelegatedTokenClaims) (response : HeaderMap) :
    (HopsStay request.headers (letThrough env request claims) ∧
        HopsStay request.headers (staticModuleCopied request.headers) ∧
        HopsStay request.headers (staticEdgeCopied env.clientIp request.headers) ∧
        HopsStay response (responseCopied response) ↔
      ∀ field ∈ request.headers, field.1 ≠ hostHeader →
        isHopByHop request.headers field.1 = false) ∧
    HopsStay request.headers (staticEdgeCopied env.clientIp request.headers) ∧
    HopsStay response (responseCopied response) := by
  have hed : HopsStay request.headers (staticEdgeCopied env.clientIp request.headers) := by
    intro field hf
    have hdr := (List.mem_filter.mp hf).2
    rw [Bool.not_eq_true', Bool.or_eq_false_iff] at hdr
    exact hdr.2
  have hba : HopsStay response (responseCopied response) := by
    intro field hf
    exact (Bool.not_eq_true' _).mp (List.mem_filter.mp hf).2
  refine ⟨⟨?_, ?_⟩, hed, hba⟩
  · rintro ⟨-, hmod, -⟩ field hf hne
    exact hmod field (List.mem_filter.mpr ⟨hf, by simpa using hne⟩)
  · intro h
    refine ⟨?_, ?_, hed, hba⟩
    · intro field hf
      obtain ⟨hmem, hpa⟩ := List.mem_filter.mp hf
      refine h field hmem ?_
      intro hho
      simp [forwardsHeader, hho] at hpa
    · intro field hf
      obtain ⟨hmem, hpa⟩ := List.mem_filter.mp hf
      exact h field hmem (by simpa using hpa)

def hopHeaders : HeaderMap :=
  [("connection", Text.utf8 "close, X-Hint"), ("te", Text.utf8 "trailers"),
    ("proxy-authorization", Text.utf8 "secret"), ("x-hint", Text.utf8 "1")]

/-- The gateway and the proxy of static modules send them on. -/
theorem hops_forwarded : hopHeaders.all (isHopByHop hopHeaders ·.1) = true ∧
      ((gatewayProxy edgeEnv { honestRequest with headers := hopHeaders }).1.map fun upstream =>
        upstream.headers.filter (isHopByHop hopHeaders ·.1)) = [hopHeaders] ∧
      staticModuleCopied hopHeaders = hopHeaders := by
  decide +kernel

end Fenrir.Gateway
