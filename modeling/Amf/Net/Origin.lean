import Amf.Net.Address
import Amf.Net.Uri

/-!
# Origins

The scheme, host and port by which a server is reached: this AMF's own server, and the servers of
peers. A peer's origin is read from a URI; an origin is written as the beginning of one:

| origin | text |
| --- | --- |
| host is an IPv6 literal | `http://[fd00::1]:8080` |
| port is the scheme's own | `https://smf.example.org` |
-/

namespace Amf

open Text

/-- The schemes of HTTP. -/
inductive Scheme where
  | http | https
  deriving DecidableEq, Repr, Inhabited

namespace Scheme

/-- The name of a scheme. -/
def name : Scheme → String
  | http => "http"
  | https => "https"

/-- The port of a server that names none. -/
def port : Scheme → UInt16
  | http => 80
  | https => 443

end Scheme

/-- The scheme, host and port by which a server is reached. -/
structure Origin where
  /-- The scheme. -/
  scheme : Scheme
  /-- The name or address of the host, without brackets. -/
  host : String
  /-- The port. -/
  port : UInt16
  deriving DecidableEq, Repr, Inhabited

/-- Why a URI names no peer that can be notified. -/
inductive TargetError where
  /-- The text is no absolute URI. -/
  | invalidUri (uri : String)
  /-- The scheme is not one of HTTP. -/
  | unsupportedScheme (scheme : String)
  /-- The URI has no host. -/
  | noHost (uri : String)
  /-- There is no room for another client. -/
  | clientLimit (capacity : Nat)
  deriving DecidableEq, Repr, Inhabited

/-- The error in words. -/
def TargetError.message : TargetError → String
  | invalidUri uri => "Invalid URI: " ++ uri
  | unsupportedScheme scheme => "Unsupported URI scheme: " ++ scheme
  | noHost uri => "No host in URI: " ++ uri
  | clientLimit capacity => "Maximum number of SBI clients [" ++ toString capacity ++ "] reached"

namespace Origin

/-- The beginning of a URI on this server. -/
def baseUri (o : Origin) : String :=
  let host := match Address.ofLiteral? o.host with
    | some (.v6 _) => "[" ++ o.host ++ "]"
    | _ => o.host
  let port := if o.port = o.scheme.port then "" else ":" ++ toString o.port.toNat
  o.scheme.name ++ "://" ++ host ++ port

/-- Text without the brackets that open it and those that close it. -/
def trimBrackets (cs : List Char) : List Char :=
  ((cs.dropWhile (· == '[')).reverse.dropWhile (· == ']')).reverse

/-- The origin of the server that a URI is on. -/
def ofUri? (text : String) : Except TargetError Origin :=
  match Uri.ofText? text with
  | none => .error (.invalidUri text)
  | some uri =>
    let on (scheme : Scheme) : Except TargetError Origin :=
      if uri.host.isEmpty then .error (.noHost text) else
        let port := uri.portText?.bind (readUnsigned? UInt16.size)
        .ok ⟨scheme, String.ofList (trimBrackets uri.host),
          (port.map UInt16.ofNat).getD scheme.port⟩
    if uri.scheme = "http" then on .http
    else if uri.scheme = "https" then on .https
    else .error (.unsupportedScheme uri.scheme)

end Origin
end Amf
