import BackendProdReady.Lib.HttpHeaders
import BackendProdReady.Lib.Runs
import BackendProdReady.Security.ClientAddress

/-!
# The admin authentication backend

`AdminAuthBackend` puts an allowlist of addresses and an MFA flag in front of the
login and the authentication of its parent class, which are parameters here.  A
session holds values of any type, read through their truth value.
-/

namespace BackendProdReady.Admin.AuthBackend

open BackendProdReady.Lib.Text
open BackendProdReady.Lib.IpAddress
open BackendProdReady.Lib.HttpHeaders
open BackendProdReady.Security.ProxyValidation

/-! ## The allowlist -/

structure AllowedIps where
  exactIps : List String
  networks : List IPNetwork

/-- An entry that is blank or parses to nothing is dropped. -/
def parseAdminAllowedIps : List String → AllowedIps
  | [] => ⟨[], []⟩
  | entry :: rest =>
      let parsed := parseAdminAllowedIps rest
      let entry := strip entry
      if entry = "" then parsed
      else if entry.toList.contains '/' then
        match ipNetwork entry with
        | some network => { parsed with networks := network :: parsed.networks }
        | none => parsed
      else
        match ipAddress entry with
        | some _ => { parsed with exactIps := entry :: parsed.exactIps }
        | none => parsed

/-- The membership tests of `_check_ip_allowed` on a non-empty list. -/
def AllowedIps.allows (allowed : AllowedIps) (clientIp : String) : Bool :=
  if clientIp ∈ allowed.exactIps then true
  else
    match ipAddress clientIp with
    | none => false
    | some clientAddr => allowed.networks.any fun network => network.contains clientAddr

/-! ## Requests and sessions -/

structure RedirectResponse where
  url : String
  statusCode : Nat
deriving DecidableEq

inductive Answer
  | bool (value : Bool)
  | redirect (response : RedirectResponse)
deriving DecidableEq

inductive AuthError (ε : Type)
  | configuration (e : ConfigurationError)
  | outside (e : ε)
deriving DecidableEq

structure Request (ε : Type) where
  headers : Headers
  /-- `request.client.host`; `none` without a client. -/
  clientHost : Option String
  /-- What `await request.form()` raises. -/
  formError : Option ε
  /-- `request.url_for`. -/
  urlFor : String → Except ε String

structure SessionValues (V : Type) where
  truthy : V → Bool
  ofBool : Bool → V
  ofText : String → V

abbrev Session (V : Type) := String → Option V

def Session.assign {V : Type} (session : Session V) (key : String) (value : V) : Session V :=
  fun other => if other = key then some value else session other

/-- `SETTINGS.ADMIN` and `SETTINGS.RATE_LIMIT`. -/
structure Settings where
  adminAllowedIps : List String
  mfaEnabled : Bool
  trustedProxyCidrs : List String

/-- The parent class: what each call answers or raises, and the session it leaves. -/
structure IpkAdminAuthBackend (V ε : Type) where
  login : Request ε → Session V → Except ε Bool × Session V
  logout : Request ε → Session V → Except ε Bool × Session V
  authenticate : Request ε → Session V → Except ε Answer × Session V

section Source

variable {V ε : Type} (settings : Settings) (values : SessionValues V)
  (parent : IpkAdminAuthBackend V ε)

def truthyAt (session : Session V) (key : String) : Bool := (session key).any values.truthy

def getClientIp (request : Request ε) : Except ConfigurationError String :=
  extractClientIpSecure settings.trustedProxyCidrs (request.headers.get "X-Forwarded-For")
    request.clientHost

def checkIpAllowed (request : Request ε) : Except ConfigurationError Bool :=
  match settings.adminAllowedIps with
  | [] => .ok true
  | allowedIps => (getClientIp settings request).map (parseAdminAllowedIps allowedIps).allows

/-- The log line of a refused login reads the address and the form. -/
def refuseLogin (request : Request ε) : Except (AuthError ε) Bool :=
  match getClientIp settings request, request.formError with
  | .error e, _ => .error (.configuration e)
  | .ok _, some e => .error (.outside e)
  | .ok _, none => .ok false

def login (request : Request ε) (session : Session V) :
    Except (AuthError ε) Bool × Session V :=
  match checkIpAllowed settings request with
  | .error e => (.error (.configuration e), session)
  | .ok false => (refuseLogin settings request, session)
  | .ok true =>
      match parent.login request session with
      | (.error e, session) => (.error (.outside e), session)
      | (.ok false, session) => (.ok false, session)
      | (.ok true, session) =>
          match getClientIp settings request with
          | .error e => (.error (.configuration e), session)
          | .ok clientIp =>
              let session := session.assign "admin_client_ip" (values.ofText clientIp)
              (.ok true,
                if settings.mfaEnabled then session.assign "mfa_verified" (values.ofBool false)
                else session)

/-- The default of `session.get("admin_client_ip", ...)` is evaluated in any case. -/
def logout (request : Request ε) (session : Session V) :
    Except (AuthError ε) Bool × Session V :=
  match getClientIp settings request with
  | .error e => (.error (.configuration e), session)
  | .ok _ =>
      let run := parent.logout request session
      (run.1.mapError .outside, run.2)

def redirectToLogin (request : Request ε) : Except (AuthError ε) Answer :=
  match request.urlFor "admin:login" with
  | .error e => .error (.outside e)
  | .ok url => .ok (.redirect ⟨url, 302⟩)

def mfaMissing (session : Session V) : Bool :=
  settings.mfaEnabled && truthyAt values session "admin_authenticated" &&
    !truthyAt values session "mfa_verified"

/-- Both refusals read the address again for their log line. -/
def refuseAccess (request : Request ε) : Except (AuthError ε) Answer :=
  match getClientIp settings request with
  | .error e => .error (.configuration e)
  | .ok _ => redirectToLogin request

def authenticate (request : Request ε) (session : Session V) :
    Except (AuthError ε) Answer × Session V :=
  match checkIpAllowed settings request with
  | .error e => (.error (.configuration e), session)
  | .ok false => (refuseAccess settings request, session)
  | .ok true =>
      if mfaMissing settings values session then (refuseAccess settings request, session)
      else
        let run := parent.authenticate request session
        (run.1.mapError .outside, run.2)

end Source

end BackendProdReady.Admin.AuthBackend
