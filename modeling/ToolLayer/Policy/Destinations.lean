import ToolLayer.Contracts.Errors
import ToolLayer.Kit.Result
import ToolLayer.Python.UrlSplit

/-! Where a deployment is willing to send requests. -/
namespace Python

/-- What `ipaddress` knows of an address: how it is written, and which of the registered
ranges it is in, as the interpreter's version lists them. -/
class AddressRegistry where
  text : IpAddress → Str
  isLoopback : IpAddress → Bool
  isMulticast : IpAddress → Bool
  isReserved : IpAddress → Bool
  isUnspecified : IpAddress → Bool
  isLinkLocal : IpAddress → Bool
  isGlobal : IpAddress → Bool

/-- `ipv4_mapped` of a version 6 address. -/
def IpAddress.unmapped : IpAddress → IpAddress
  | .v6 n => if n / 2 ^ 32 = 0xFFFF then .v4 (n % 2 ^ 32) else .v6 n
  | .v4 n => .v4 n

end Python

namespace ToolLayer.Policy
open Python Kit Kit.Result

def policyDenied (code : ErrorCode) (message : Str) : PyExc := toolLayerError code message

/-- `DnsResolver.resolve`. -/
abbrev DnsResolver := (host : Str) → (port : Nat) → Except PyExc (List Str)

structure Authority where
  scheme : Str
  host : Str
  port : Nat
  hasUserinfo : Bool
  deriving DecidableEq

/-- `_DEFAULT_PORTS`. -/
def defaultPort (scheme : Str) : Option Nat :=
  if scheme = Str.lit "http" then some 80 else if scheme = Str.lit "https" then some 443 else none

section Parsing

variable [Unicode]

/-- `_split_authority`; `none` is `ValueError`. -/
def splitAuthority (value : Str) : Option Authority :=
  if Url.splittable value then
    let parsed := Url.components value
    match defaultPort parsed.scheme,Url.hostname parsed.netloc,Url.port parsed.netloc with
    | some standard,some host,some port =>
      let (name,password) := Url.userinfo parsed.netloc
      let host := Str.rstrip (fun c => c == CodePoint.ofChar '.') host
      if host.isEmpty then none
      else some ⟨parsed.scheme,Unicode.lower host,match port with | some (n + 1) => n + 1 | _ => standard,
        name.any (fun s => !s.isEmpty) || password.any (fun s => !s.isEmpty)⟩
    | _,_,_ => none
  else none

def originText (scheme host : Str) (port : Nat) : Str :=
  scheme ++ Str.lit "://" ++ host ++ CodePoint.ofChar ':' :: Decimal.natural port

/-- `normalize_origin`; `none` is `ValueError`. -/
def normalizeOrigin (value : Str) : Option Str :=
  match splitAuthority (if Str.contains "://" value then value else Str.lit "https://" ++ value) with
  | some authority =>
    if authority.hasUserinfo then none else some (originText authority.scheme authority.host authority.port)
  | none => none

end Parsing

structure ResolvedDestination where
  origin : Str
  scheme : Str
  host : Str
  port : Nat
  addresses : List Str
  deriving DecidableEq

/-- `DEFAULT_ALLOWED_METHODS`. -/
def defaultAllowedMethods : List Str := ["GET","POST","PUT","PATCH","DELETE"]

structure DestinationPolicy where
  allowedOrigins : List Str := []
  allowedMethods : List Str := defaultAllowedMethods
  allowPlaintextHttp : Bool := false
  allowLoopback : Bool := false
  allowPrivateAddresses : Bool := false

namespace DestinationPolicy

/-- `from_origins`; a set of methods that is empty counts as none given. -/
def fromOrigins [Unicode] (origins allowedMethods : List Str) (plaintext loopback privateAddresses : Bool) :
    Except PyExc DestinationPolicy :=
  match origins.mapM normalizeOrigin with
  | some normalized => .ok ⟨normalized,if allowedMethods.isEmpty then defaultAllowedMethods else allowedMethods,
      plaintext,loopback,privateAddresses⟩
  | none => .error .valueError

variable (policy : DestinationPolicy)

/-- `check_method`, of a method in upper case. -/
def checkMethod (method : Str) : Except PyExc Unit :=
  refuse (!policy.allowedMethods.contains method) (policyDenied .methodNotAllowed
    (Str.lit "the " ++ method ++ Str.lit " method is not permitted by this deployment"))

variable [AddressRegistry]

def blocked (message : Str) : PyExc := policyDenied .privateAddressBlocked message

def checkAddress (address : Str) : Except PyExc Unit :=
  match Ip.address? address with
  | none => .error (blocked "the destination resolved to an address that could not be parsed")
  | some parsed =>
    let parsed := parsed.unmapped
    if AddressRegistry.isLoopback parsed then
      refuse (!policy.allowLoopback) (blocked "the destination resolves to a loopback address")
    else do
      refuse (AddressRegistry.isMulticast parsed || AddressRegistry.isReserved parsed ||
        AddressRegistry.isUnspecified parsed) (blocked "the destination resolves to a reserved address")
      refuse (AddressRegistry.isLinkLocal parsed) (blocked "the destination resolves to a link-local address")
      refuse (!AddressRegistry.isGlobal parsed && !policy.allowPrivateAddresses)
        (blocked "the destination resolves to an address that is not globally routable")

/-- A version 6 literal keeps its zone. -/
def zoneOf (host : Str) : IpAddress → Str
  | .v6 _ => host.dropWhile (fun c => c != CodePoint.ofChar '%')
  | .v4 _ => []

def resolvedAddresses (host : Str) (port : Nat) (resolver : DnsResolver) : Except PyExc (List Str) :=
  match Ip.address? host with
  | some literal => .ok [AddressRegistry.text literal ++ zoneOf host literal]
  | none => resolver host port

/-- `check`. -/
def check [Unicode] (url : Str) (resolver : DnsResolver) : Except PyExc ResolvedDestination :=
  match splitAuthority url with
  | none => .error (policyDenied .destinationNotAllowed "the destination URL is not parseable")
  | some authority => do
    refuse (authority.scheme == Str.lit "http" && !policy.allowPlaintextHttp)
      (policyDenied .destinationNotAllowed "plaintext http destinations are disabled for this deployment")
    refuse authority.hasUserinfo
      (policyDenied .destinationNotAllowed "the destination URL must not contain credentials")
    let origin := originText authority.scheme authority.host authority.port
    refuse policy.allowedOrigins.isEmpty
      (policyDenied .destinationNotAllowed "this deployment has no allowlisted destinations")
    refuse (!policy.allowedOrigins.contains origin)
      (policyDenied .destinationNotAllowed "the destination origin is not on this deployment's allowlist")
    let addresses ← resolvedAddresses authority.host authority.port resolver
    let _ ← loop (fun _ address => policy.checkAddress address) () addresses
    return ⟨origin,authority.scheme,Unicode.lower authority.host,authority.port,addresses⟩

end DestinationPolicy

end ToolLayer.Policy
