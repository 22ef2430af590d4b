import BackendProdReady.Conf.TrustedProxyCidrs
import BackendProdReady.Security.ClientAddress

/-!
# Accepted configurations on the request path

The networks of TRUSTED_PROXY_CIDRS are parsed when a request first needs them,
and parsing raises at the first entry that `ip_network` rejects.  The validator
of the settings parses no entry, so whether a request can be evaluated depends on
the entries and, where one is malformed, on whether the peer is an address.
-/

namespace BackendProdReady.Conf.RequestPath

open BackendProdReady.Lib.IpAddress
open BackendProdReady.Security.ProxyValidation
open BackendProdReady.Security.ClientAddress
open BackendProdReady.Conf.Settings
open BackendProdReady.Conf.TrustedProxyCidrs

/-- The two functions of the request path return for this header and peer. -/
structure Evaluates (cidrs : List String) (xForwardedFor directIp : Option String) : Prop where
  trusted : ∃ trusted, isTrustedProxy cidrs (orUnknown directIp) = .ok trusted
  extracted : ∃ clientIp, extractClientIpSecure cidrs xForwardedFor directIp = .ok clientIp

/-! ## Requests -/

theorem evaluates_of_wellFormed {cidrs : List String} (h : WellFormed cidrs)
    (xForwardedFor directIp : Option String) : Evaluates cidrs xForwardedFor directIp := by
  obtain ⟨networks, hnetworks⟩ := parse_of_wellFormed h
  constructor
  · by_cases htrusted : Trusted networks (orUnknown directIp)
    · exact ⟨true, isTrustedProxy_of_trusted hnetworks htrusted⟩
    · exact ⟨false, isTrustedProxy_of_not_trusted hnetworks htrusted⟩
  · by_cases hpeer : ∃ d, directIp = some d ∧ Trusted networks d
    · obtain ⟨d, rfl, htrusted⟩ := hpeer
      cases xForwardedFor with
      | none => exact ⟨_, rfl⟩
      | some header => exact ⟨_, extract_of_trusted hnetworks htrusted⟩
    · refine ⟨_, extract_of_not_trusted hnetworks (fun d hd htrusted => ?_) xForwardedFor⟩
      exact hpeer ⟨d, hd, htrusted⟩

/-- A peer that is no address is never looked up in the networks. -/
theorem evaluates_of_no_address {directIp : Option String}
    (h : ipAddress (orUnknown directIp) = none) (cidrs : List String)
    (xForwardedFor : Option String) : Evaluates cidrs xForwardedFor directIp := by
  have huntrusted : isTrustedProxy cidrs (orUnknown directIp) = .ok false := by
    simp [isTrustedProxy, h]
  refine ⟨⟨false, huntrusted⟩, ⟨orUnknown directIp, ?_⟩⟩
  unfold extractClientIpSecure
  split
  · rfl
  · rfl
  · simp [huntrusted]

theorem not_evaluates {cidrs : List String} {directIp : Option String} {addr : IPAddress}
    (h : ¬ WellFormed cidrs) (haddr : ipAddress (orUnknown directIp) = some addr)
    (xForwardedFor : Option String) : ¬ Evaluates cidrs xForwardedFor directIp := by
  rintro ⟨⟨trusted, htrusted⟩, -⟩
  obtain ⟨cidr, -, -, herror⟩ := parse_of_not_wellFormed h
  have hempty : orUnknown directIp ≠ "" := fun hd => by simp [hd, ipAddress_empty] at haddr
  have hunknown : orUnknown directIp ≠ "unknown" := fun hd => by
    simp [hd, ipAddress_unknown] at haddr
  simp [isTrustedProxy, hempty, hunknown, haddr, herror, Except.map] at htrusted

theorem evaluates_iff (cidrs : List String) (xForwardedFor directIp : Option String) :
    Evaluates cidrs xForwardedFor directIp ↔
      WellFormed cidrs ∨ ipAddress (orUnknown directIp) = none := by
  constructor
  · intro h
    by_contra hcond
    obtain ⟨hcidrs, haddr⟩ := not_or.mp hcond
    obtain ⟨addr, haddr⟩ := Option.ne_none_iff_exists'.mp haddr
    exact not_evaluates hcidrs haddr xForwardedFor h
  · rintro (hcidrs | haddr)
    · exact evaluates_of_wellFormed hcidrs _ _
    · exact evaluates_of_no_address haddr _ _

/-! ## Main result -/

/-- The lists on which the validator and the request path agree: every entry is
well formed, or a broad spelling has the list refused. -/
def Settled (environment : Environment) (cidrs : List String) : Prop :=
  WellFormed cidrs ∨ environment = .prod ∧ ∃ cidr ∈ cidrs, cidr ∈ overlyBroadCidrs

theorem wellFormed_of_devOnly {cidrs : List String}
    (h : ∀ cidr ∈ cidrs, cidr ∈ devOnlyDefaults) : WellFormed cidrs := by
  have hdefaults : WellFormed devOnlyDefaults := by decide
  exact fun cidr hcidr => hdefaults cidr (h cidr hcidr)

theorem settled_of_refused {environment : Environment} {cidrs : List String}
    (h : validateTrustedProxyCidrs environment cidrs ≠ .ok ()) : Settled environment cidrs := by
  by_cases hprod : environment = .prod
  · subst hprod
    rcases not_not.mp (mt (validateTrustedProxyCidrs_prod cidrs).mpr h) with hbroad | hdefaults
    · exact .inr ⟨rfl, hbroad⟩
    · exact .inl (wellFormed_of_devOnly hdefaults)
  · exact absurd (if_pos hprod) h

theorem refused_of_broad {environment : Environment} {cidrs : List String}
    (h : environment = .prod ∧ ∃ cidr ∈ cidrs, cidr ∈ overlyBroadCidrs) :
    validateTrustedProxyCidrs environment cidrs ≠ .ok () := by
  obtain ⟨rfl, hbroad⟩ := h
  exact fun haccepted => (validateTrustedProxyCidrs_prod cidrs).mp haccepted (.inl hbroad)

/-- Settings that are accepted can be evaluated on a request exactly when every
entry is well formed, the list is refused in production for a broad spelling, or
the peer is no address; on all requests exactly when one of the first two holds. -/
theorem accepted_evaluates_iff (environment : Environment) (cidrs : List String) :
    (∀ xForwardedFor directIp,
      (validateTrustedProxyCidrs environment cidrs = .ok () →
          Evaluates cidrs xForwardedFor directIp) ↔
        (Settled environment cidrs ∨ ipAddress (orUnknown directIp) = none)) ∧
    ((validateTrustedProxyCidrs environment cidrs = .ok () →
        ∀ xForwardedFor directIp, Evaluates cidrs xForwardedFor directIp) ↔
      Settled environment cidrs) := by
  have hrequest : ∀ xForwardedFor directIp,
      (validateTrustedProxyCidrs environment cidrs = .ok () →
          Evaluates cidrs xForwardedFor directIp) ↔
        (Settled environment cidrs ∨ ipAddress (orUnknown directIp) = none) := by
    intro xForwardedFor directIp
    rw [evaluates_iff]
    constructor
    · intro h
      by_cases haccepted : validateTrustedProxyCidrs environment cidrs = .ok ()
      · exact (h haccepted).imp_left .inl
      · exact .inl (settled_of_refused haccepted)
    · rintro ((hwell | hbroad) | hpeer) haccepted
      · exact .inl hwell
      · exact absurd haccepted (refused_of_broad hbroad)
      · exact .inr hpeer
  refine ⟨hrequest, ⟨fun h => ?_, fun h haccepted xForwardedFor directIp => ?_⟩⟩
  · -- a peer that is an address needs the networks
    have hpeer : ipAddress (orUnknown (some "10.0.0.1")) ≠ none := by decide
    have hcond := (hrequest none (some "10.0.0.1")).mp fun haccepted => h haccepted _ _
    exact hcond.resolve_right hpeer
  · exact (hrequest xForwardedFor directIp).mpr (.inl h) haccepted

/-- A prefix length of 33 passes the validator in production, and a request without
the header; a request with the header, or a test of its peer, raises. -/
theorem malformed_entry_accepted :
    validateTrustedProxyCidrs .prod ["10.0.1.0/24", "10.0.2.0/33"] = .ok () ∧
      extractClientIpSecure ["10.0.1.0/24", "10.0.2.0/33"] none (some "10.0.1.5") =
        .ok "10.0.1.5" ∧
      extractClientIpSecure ["10.0.1.0/24", "10.0.2.0/33"] (some "1.2.3.4") (some "10.0.1.5") =
        .error ⟨"10.0.2.0/33"⟩ ∧
      isTrustedProxy ["10.0.1.0/24", "10.0.2.0/33"] "10.0.1.5" = .error ⟨"10.0.2.0/33"⟩ := by
  decide

end BackendProdReady.Conf.RequestPath
