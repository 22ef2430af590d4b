import BackendProdReady.Admin.AuthBackend

/-!
# Who passes the admin gate

With a non-empty allowlist, a login or an authentication that answers `True` came
from an address the allowlist names, whatever was requested before it.  The parent
class is assumed to let in correct credentials and authenticated sessions only.
-/

namespace BackendProdReady.Admin.Gate

open BackendProdReady.Lib.Runs
open BackendProdReady.Lib.Text
open BackendProdReady.Lib.IpAddress
open BackendProdReady.Lib.HttpHeaders
open BackendProdReady.Security.ProxyValidation
open BackendProdReady.Security.ClientAddress
open BackendProdReady.Admin.AuthBackend

/-! ## What an allowlist says -/

def IsCidr (entry : String) : Prop := '/' ∈ (strip entry).toList

/-- A valid exact entry equal to the address, or a valid CIDR entry around it. -/
def EntryAdmits (addr : IPAddress) (entry : String) : Prop :=
  (¬ IsCidr entry ∧ ipAddress (strip entry) = some addr) ∨
    (IsCidr entry ∧ ∃ network, ipNetwork (strip entry) = some network ∧
      network.contains addr = true)

def Listed (allowedIps : List String) (text : String) : Prop :=
  ∃ addr, ipAddress text = some addr ∧ ∃ entry ∈ allowedIps, EntryAdmits addr entry

/-- The entry is blank, or parses neither as the address nor as the network it
is taken for. -/
def Unusable (entry : String) : Prop :=
  strip entry = "" ∨ (¬ IsCidr entry ∧ ipAddress (strip entry) = none) ∨
    (IsCidr entry ∧ ipNetwork (strip entry) = none)

theorem not_entryAdmits_of_unusable {entry : String} (h : Unusable entry) (addr : IPAddress) :
    ¬ EntryAdmits addr entry := by
  intro hadmits
  rcases h with hblank | ⟨hexact, hnone⟩ | ⟨hcidr, hnone⟩
  · rcases hadmits with ⟨-, haddr⟩ | ⟨hcidr, -⟩
    · rw [hblank, ipAddress_empty] at haddr
      cases haddr
    · rw [IsCidr, hblank] at hcidr
      cases hcidr
  · rcases hadmits with ⟨-, haddr⟩ | ⟨hcidr, -⟩
    · rw [hnone] at haddr
      cases haddr
    · exact hexact hcidr
  · rcases hadmits with ⟨hexact, -⟩ | ⟨-, network, hnetwork, -⟩
    · exact hexact hcidr
    · rw [hnone] at hnetwork
      cases hnetwork

/-- Every exact address and every network comes from an entry of its kind. -/
structure ParsedFrom (entries : List String) (parsed : AllowedIps) : Prop where
  exact : ∀ ip ∈ parsed.exactIps, ∃ entry ∈ entries, ¬ IsCidr entry ∧ strip entry = ip ∧
    (ipAddress ip).isSome = true
  network : ∀ network ∈ parsed.networks, ∃ entry ∈ entries, IsCidr entry ∧
    ipNetwork (strip entry) = some network

theorem ParsedFrom.cons {entries : List String} {parsed : AllowedIps}
    (h : ParsedFrom entries parsed) (entry : String) : ParsedFrom (entry :: entries) parsed where
  exact ip hip := by
    obtain ⟨found, hmem, hentry⟩ := h.exact ip hip
    exact ⟨found, List.mem_cons_of_mem _ hmem, hentry⟩
  network network hnetwork := by
    obtain ⟨found, hmem, hentry⟩ := h.network network hnetwork
    exact ⟨found, List.mem_cons_of_mem _ hmem, hentry⟩

theorem parsedFrom (entries : List String) : ParsedFrom entries (parseAdminAllowedIps entries) := by
  induction entries with
  | nil => exact ⟨by simp [parseAdminAllowedIps], by simp [parseAdminAllowedIps]⟩
  | cons entry rest ih =>
      have hrest := ih.cons entry
      rw [parseAdminAllowedIps]
      split_ifs with hblank hslash
      · exact hrest
      · have hcidr : IsCidr entry := by simpa [IsCidr] using hslash
        cases hnetwork : ipNetwork (strip entry) with
        | none => exact hrest
        | some network =>
            refine ⟨hrest.exact, fun other hother => ?_⟩
            rcases List.mem_cons.mp hother with rfl | hother
            · exact ⟨entry, List.mem_cons_self, hcidr, hnetwork⟩
            · exact hrest.network other hother
      · have hexact : ¬ IsCidr entry := by simpa [IsCidr] using hslash
        cases haddr : ipAddress (strip entry) with
        | none => exact hrest
        | some addr =>
            refine ⟨fun ip hip => ?_, hrest.network⟩
            rcases List.mem_cons.mp hip with rfl | hip
            · exact ⟨entry, List.mem_cons_self, hexact, rfl, by rw [haddr]; rfl⟩
            · exact hrest.exact ip hip

theorem listed_of_allows {entries : List String} {text : String}
    (h : (parseAdminAllowedIps entries).allows text = true) : Listed entries text := by
  have hparsed := parsedFrom entries
  unfold AllowedIps.allows at h
  split_ifs at h with hexact
  · obtain ⟨entry, hmem, hkind, rfl, hvalid⟩ := hparsed.exact text hexact
    obtain ⟨addr, haddr⟩ := Option.isSome_iff_exists.mp hvalid
    exact ⟨addr, haddr, entry, hmem, .inl ⟨hkind, haddr⟩⟩
  · cases haddr : ipAddress text with
    | none => simp [haddr] at h
    | some addr =>
        rw [haddr] at h
        obtain ⟨network, hnetwork, hcontains⟩ := List.any_eq_true.mp h
        obtain ⟨entry, hmem, hkind, hparse⟩ := hparsed.network network hnetwork
        exact ⟨addr, haddr, entry, hmem, .inr ⟨hkind, network, hparse, hcontains⟩⟩

theorem not_listed_of_unusable {entries : List String} (h : ∀ entry ∈ entries, Unusable entry)
    (text : String) : ¬ Listed entries text := by
  rintro ⟨addr, -, entry, hmem, hadmits⟩
  exact not_entryAdmits_of_unusable (h entry hmem) addr hadmits

/-! ## One request -/

section Requests

variable {V ε : Type} {settings : Settings} {values : SessionValues V}
  {parent : IpkAdminAuthBackend V ε}

def FromListed (settings : Settings) (request : Request ε) : Prop :=
  ∃ clientIp, getClientIp settings request = .ok clientIp ∧
    Listed settings.adminAllowedIps clientIp

theorem fromListed_of_allowed {request : Request ε} (hne : settings.adminAllowedIps ≠ [])
    (h : checkIpAllowed settings request = .ok true) : FromListed settings request := by
  unfold checkIpAllowed at h
  split at h
  · rename_i hnil
    exact absurd hnil hne
  · cases hclient : getClientIp settings request with
    | error e => simp [hclient, Except.map] at h
    | ok clientIp =>
        rw [hclient] at h
        exact ⟨clientIp, hclient, listed_of_allows (Except.ok.inj h)⟩

theorem refuseLogin_ne_true (request : Request ε) :
    refuseLogin settings request ≠ .ok true := by
  unfold refuseLogin
  split <;> simp

theorem refuseAccess_ne_true (request : Request ε) :
    refuseAccess settings request ≠ .ok (.bool true) := by
  unfold refuseAccess redirectToLogin
  split
  · simp
  · split <;> simp

theorem login_true {request : Request ε} {session : Session V}
    (h : (login settings values parent request session).1 = .ok true) :
    checkIpAllowed settings request = .ok true ∧
      (parent.login request session).1 = .ok true := by
  unfold login at h
  cases hallowed : checkIpAllowed settings request with
  | error e => simp [hallowed] at h
  | ok allowed =>
      cases allowed with
      | false => exact absurd (by simpa [hallowed] using h) (refuseLogin_ne_true request)
      | true =>
          refine ⟨rfl, ?_⟩
          cases hparent : parent.login request session with
          | mk answer after =>
              cases answer with
              | error e => simp [hallowed, hparent] at h
              | ok success =>
                  cases success with
                  | false => simp [hallowed, hparent] at h
                  | true => rfl

theorem authenticate_true {request : Request ε} {session : Session V}
    (h : (authenticate settings values parent request session).1 = .ok (.bool true)) :
    checkIpAllowed settings request = .ok true ∧ mfaMissing settings values session = false ∧
      (parent.authenticate request session).1 = .ok (.bool true) := by
  unfold authenticate at h
  cases hallowed : checkIpAllowed settings request with
  | error e => simp [hallowed] at h
  | ok allowed =>
      cases allowed with
      | false => exact absurd (by simpa [hallowed] using h) (refuseAccess_ne_true request)
      | true =>
          cases hmfa : mfaMissing settings values session with
          | true =>
              exact absurd (by simpa [hallowed, hmfa] using h) (refuseAccess_ne_true request)
          | false =>
              refine ⟨rfl, rfl, ?_⟩
              cases hparent : (parent.authenticate request session).1 with
              | error e => simp [hallowed, hmfa, hparent, Except.mapError] at h
              | ok answer => simpa [hallowed, hmfa, hparent, Except.mapError] using h

theorem not_fromListed_of_untrusted {request : Request ε}
    (huntrusted : isTrustedProxy settings.trustedProxyCidrs (orUnknown request.clientHost) ≠
      .ok true)
    (hunlisted : ¬ Listed settings.adminAllowedIps (orUnknown request.clientHost)) :
    ¬ FromListed settings request := by
  rintro ⟨clientIp, hclient, hlisted⟩
  have hpeer := extract_of_untrusted huntrusted hclient
  exact hunlisted (hpeer ▸ hlisted)

end Requests

/-! ## Runs -/

/-- A request of one client, who presents the session its earlier requests left. -/
inductive Op (κ ε : Type)
  | login (client : κ) (request : Request ε)
  | logout (client : κ) (request : Request ε)
  | authenticate (client : κ) (request : Request ε)

def Op.client {κ ε : Type} : Op κ ε → κ
  | .login client _ | .logout client _ | .authenticate client _ => client

def Op.request {κ ε : Type} : Op κ ε → Request ε
  | .login _ request | .logout _ request | .authenticate _ request => request

def Op.isLogout {κ ε : Type} : Op κ ε → Bool
  | .logout _ _ => true
  | _ => false

/-- The session a request came with and how it was answered. -/
structure Shown (V ε : Type) where
  session : Session V
  outcome : Except (AuthError ε) Answer

section Runs

variable {κ V ε : Type} [DecidableEq κ] (settings : Settings) (values : SessionValues V)
  (parent : IpkAdminAuthBackend V ε)

def perform (session : Session V) : Op κ ε → Except (AuthError ε) Answer × Session V
  | .login _ request =>
      let run := login settings values parent request session
      (run.1.map .bool, run.2)
  | .logout _ request =>
      let run := logout settings parent request session
      (run.1.map .bool, run.2)
  | .authenticate _ request => authenticate settings values parent request session

def react (sessions : κ → Session V) (op : Op κ ε) : (κ → Session V) × Shown V ε :=
  let run := perform settings values parent (sessions op.client) op
  (Function.update sessions op.client run.2, ⟨sessions op.client, run.1⟩)

def Step (sessions : κ → Session V) (label : Op κ ε × Shown V ε) (after : κ → Session V) :
    Prop :=
  react settings values parent sessions label.1 = (after, label.2)

/-- What a login or an authentication has passed when it answers `True`. -/
def Passed (correct : Request ε → Prop) (session : Session V) : Op κ ε → Prop
  | .login _ request => FromListed settings request ∧ correct request
  | .authenticate _ request =>
      FromListed settings request ∧ truthyAt values session "admin_authenticated" = true ∧
        (settings.mfaEnabled = true → truthyAt values session "mfa_verified" = true)
  | .logout _ _ => True

/-- The parent lets in correct credentials and authenticated sessions only. -/
structure ParentSound (correct : Request ε → Prop) : Prop where
  login : ∀ request session, (parent.login request session).1 = .ok true → correct request
  authenticate : ∀ request session,
    (parent.authenticate request session).1 = .ok (.bool true) →
      truthyAt values session "admin_authenticated" = true

end Runs

section Results

variable {κ V ε : Type} [DecidableEq κ] {settings : Settings} {values : SessionValues V}
  {parent : IpkAdminAuthBackend V ε} {correct : Request ε → Prop}

theorem step_passed (hparent : ParentSound values parent correct)
    (hne : settings.adminAllowedIps ≠ []) {sessions after : κ → Session V}
    {label : Op κ ε × Shown V ε} (h : Step settings values parent sessions label after)
    (htrue : label.2.outcome = .ok (.bool true)) :
    Passed settings values correct label.2.session label.1 := by
  obtain ⟨op, shown⟩ := label
  obtain ⟨-, hshown⟩ := Prod.mk.inj h
  dsimp only at hshown htrue ⊢
  subst hshown
  cases op with
  | login client request =>
      have hlogin : (login settings values parent request (sessions client)).1 = .ok true := by
        cases hrun : (login settings values parent request (sessions client)).1 with
        | error e => simp [perform, hrun, Op.client, Except.map] at htrue
        | ok success => simpa [perform, hrun, Op.client, Except.map] using htrue
      obtain ⟨hallowed, hcorrect⟩ := login_true hlogin
      exact ⟨fromListed_of_allowed hne hallowed, hparent.login _ _ hcorrect⟩
  | logout client request => trivial
  | authenticate client request =>
      obtain ⟨hallowed, hmfa, hauth⟩ := authenticate_true htrue
      have hauthenticated := hparent.authenticate _ _ hauth
      refine ⟨fromListed_of_allowed hne hallowed, hauthenticated, fun henabled => ?_⟩
      simp only [mfaMissing, henabled, hauthenticated, Bool.true_and,
        Bool.not_eq_eq_eq_not, Bool.not_false] at hmfa
      exact hmfa

omit [DecidableEq κ] in
theorem fromListed_of_passed {session : Session V} {op : Op κ ε}
    (h : Passed settings values correct session op) (hgated : op.isLogout = false) :
    FromListed settings op.request := by
  cases op with
  | login client request => exact h.1
  | logout client request => cases hgated
  | authenticate client request => exact h.1

/-! ## Main result -/

/-- In every run, a login or an authentication that answers `True` has passed the
allowlist and the MFA flag.  So an allowlist without a usable entry admits nobody,
and neither does any header of an untrusted peer outside the list. -/
theorem gate_sound (hparent : ParentSound values parent correct)
    (hne : settings.adminAllowedIps ≠ []) {sessions after : κ → Session V}
    {labels : List (Op κ ε × Shown V ε)}
    (hrun : Run (Step settings values parent) sessions labels after) :
    (∀ label ∈ labels, label.2.outcome = .ok (.bool true) →
      Passed settings values correct label.2.session label.1) ∧
    ((∀ entry ∈ settings.adminAllowedIps, Unusable entry) →
      ∀ label ∈ labels, label.1.isLogout = false → label.2.outcome ≠ .ok (.bool true)) ∧
    (∀ label ∈ labels, label.1.isLogout = false →
      isTrustedProxy settings.trustedProxyCidrs (orUnknown label.1.request.clientHost) ≠
        .ok true →
      ¬ Listed settings.adminAllowedIps (orUnknown label.1.request.clientHost) →
      label.2.outcome ≠ .ok (.bool true)) := by
  have hpassed : ∀ label ∈ labels, label.2.outcome = .ok (.bool true) →
      Passed settings values correct label.2.session label.1 :=
    hrun.forall_mem fun _ _ _ hstep => step_passed hparent hne hstep
  refine ⟨hpassed, fun hunusable label hlabel hgated htrue => ?_,
    fun label hlabel hgated huntrusted hunlisted htrue => ?_⟩
  · obtain ⟨clientIp, -, hlisted⟩ :=
      fromListed_of_passed (hpassed label hlabel htrue) hgated
    exact not_listed_of_unusable hunusable clientIp hlisted
  · have hfrom := fromListed_of_passed (hpassed label hlabel htrue) hgated
    exact not_fromListed_of_untrusted huntrusted hunlisted hfrom

end Results

/-! ## One run -/

/-- A session of flags only; texts are true. -/
def flagValues : SessionValues Bool := ⟨id, id, fun _ => true⟩

def sampleParent : IpkAdminAuthBackend Bool Unit where
  login request session :=
    (.ok request.formError.isNone, if request.formError.isNone then
      session.assign "admin_authenticated" true else session)
  logout _ _ := (.ok true, fun _ => none)
  authenticate _ session :=
    (.ok (.bool (truthyAt flagValues session "admin_authenticated")), session)

theorem sampleParent_sound :
    ParentSound flagValues sampleParent fun request : Request Unit =>
      request.formError.isNone = true where
  login _ _ h := Except.ok.inj h
  authenticate _ _ h := Answer.bool.inj (Except.ok.inj h)

def sampleSettings : Settings := ⟨["10.0.0.0/8", "no address"], false, ["192.168.0.0/16"]⟩

/-- A client inside the allowlist, behind a trusted proxy. -/
def proxiedRequest : Request Unit :=
  ⟨[("x-forwarded-for", "10.1.2.3")], some "192.168.0.9", none, fun _ => .ok "/admin/login"⟩

/-- The client logs in and is authenticated afterwards. -/
theorem gate_sound_login : ∃ labels : List (Op Unit Unit × Shown Bool Unit), ∃ after,
    Run (Step sampleSettings flagValues sampleParent) (fun _ _ => none) labels after ∧
      labels.map (fun label => label.2.outcome) = [.ok (.bool true), .ok (.bool true)] ∧
      ∀ label ∈ labels, FromListed sampleSettings label.1.request := by
  let start : Unit → Session Bool := fun _ _ => none
  let loggedIn := react sampleSettings flagValues sampleParent start (.login () proxiedRequest)
  let admitted := react sampleSettings flagValues sampleParent loggedIn.1
    (.authenticate () proxiedRequest)
  have hlogin : Step sampleSettings flagValues sampleParent start
      (.login () proxiedRequest, loggedIn.2) loggedIn.1 := rfl
  have hauth : Step sampleSettings flagValues sampleParent loggedIn.1
      (.authenticate () proxiedRequest, admitted.2) admitted.1 := rfl
  have hrun := (Run.single hlogin).tail hauth
  have htrue : loggedIn.2.outcome = .ok (.bool true) ∧ admitted.2.outcome = .ok (.bool true) := by
    decide
  have hpassed := (gate_sound sampleParent_sound (by decide) hrun).1
  refine ⟨_, _, hrun, by simp [htrue], fun label hlabel => ?_⟩
  have hlogged := hpassed (.login () proxiedRequest, loggedIn.2) (by simp) htrue.1
  have hadmitted := hpassed (.authenticate () proxiedRequest, admitted.2) (by simp) htrue.2
  rcases List.mem_append.mp hlabel with hfirst | hsecond
  · rw [List.mem_singleton.mp hfirst]
    exact hlogged.1
  · rw [List.mem_singleton.mp hsecond]
    exact hadmitted.1

end BackendProdReady.Admin.Gate
