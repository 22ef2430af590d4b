import BackendProdReady.Lib.IpAddress

/-!
# Client addresses behind trusted proxies

`extract_client_ip_secure` reads `X-Forwarded-For` only when the peer is a
trusted proxy, and then walks it from the right to the first address outside
the trusted networks.  The second half states what the walk is for: it finds
the rightmost outsider, so the result has an origin, the peer or one position
of the header.
-/

namespace BackendProdReady.Security.ProxyValidation

open BackendProdReady.Lib.Text
open BackendProdReady.Lib.IpAddress

/-! ## The source functions -/

/-- An entry of TRUSTED_PROXY_CIDRS that `ip_network` rejects. -/
structure ConfigurationError where
  cidr : String
deriving DecidableEq

def parseTrustedNetworks : List String → Except ConfigurationError (List IPNetwork)
  | [] => .ok []
  | cidr :: cidrs =>
      match ipNetwork cidr with
      | none => .error ⟨cidr⟩
      | some network => (parseTrustedNetworks cidrs).map (network :: ·)

section Source

-- `cidrs` is SETTINGS.RATE_LIMIT.TRUSTED_PROXY_CIDRS throughout.
variable (cidrs : List String)

def isTrustedProxy (ip : String) : Except ConfigurationError Bool :=
  if ip = "" ∨ ip = "unknown" then .ok false
  else
    match ipAddress ip with
    | none => .ok false
    | some addr =>
        (parseTrustedNetworks cidrs).map fun trustedNetworks =>
          trustedNetworks.any fun network => network.contains addr

/-- The loop over `reversed(_ips)`; `none` when it runs out of entries. -/
def firstNonTrusted : List String → Except ConfigurationError (Option String)
  | [] => .ok none
  | entry :: rest =>
      let ip := strip entry
      if ip = "" then firstNonTrusted rest
      else
        match ipAddress ip with
        | none => firstNonTrusted rest
        | some _ =>
            match isTrustedProxy cidrs ip with
            | .error e => .error e
            | .ok true => firstNonTrusted rest
            | .ok false => .ok (some ip)

/-- `direct_ip or "unknown"`. -/
def orUnknown : Option String → String
  | none | some "" => "unknown"
  | some directIp => directIp

/-- `[ip.strip() for ip in x_forwarded_for.split(",")]`. -/
def entries (xForwardedFor : String) : List String :=
  (split ',' xForwardedFor).map strip

def extractClientIpSecure (xForwardedFor directIp : Option String) :
    Except ConfigurationError String :=
  let directIp := orUnknown directIp
  match xForwardedFor with
  | none | some "" => .ok directIp
  | some header =>
      match isTrustedProxy cidrs directIp with
      | .error e => .error e
      | .ok false => .ok directIp
      | .ok true =>
          match entries header with
          | [] => .ok directIp
          | leftmost :: rest =>
              match firstNonTrusted cidrs (leftmost :: rest).reverse with
              | .error e => .error e
              | .ok (some ip) => .ok ip
              | .ok none =>
                  let clientIp := strip leftmost
                  match ipAddress clientIp with
                  | some _ => .ok clientIp
                  | none => .ok directIp

end Source

/-! ## Parsing the entries -/

def WellFormed (cidrs : List String) : Prop := ∀ cidr ∈ cidrs, (ipNetwork cidr).isSome = true

instance (cidrs : List String) : Decidable (WellFormed cidrs) :=
  inferInstanceAs (Decidable (∀ _ ∈ _, _))

theorem parse_of_wellFormed {cidrs : List String} (h : WellFormed cidrs) :
    ∃ networks, parseTrustedNetworks cidrs = .ok networks := by
  induction cidrs with
  | nil => exact ⟨[], rfl⟩
  | cons cidr cidrs ih =>
      obtain ⟨network, hnetwork⟩ := Option.isSome_iff_exists.mp (h cidr (by simp))
      obtain ⟨networks, hnetworks⟩ := ih fun c hc => h c (List.mem_cons_of_mem _ hc)
      exact ⟨network :: networks, by simp [parseTrustedNetworks, hnetwork, hnetworks, Except.map]⟩

/-- The error names an entry of the list that `ip_network` rejects. -/
theorem parse_of_not_wellFormed {cidrs : List String} (h : ¬ WellFormed cidrs) :
    ∃ cidr ∈ cidrs, ipNetwork cidr = none ∧ parseTrustedNetworks cidrs = .error ⟨cidr⟩ := by
  induction cidrs with
  | nil => exact absurd (fun c hc => by simp at hc) h
  | cons cidr cidrs ih =>
      cases hcidr : ipNetwork cidr with
      | none => exact ⟨cidr, by simp, hcidr, by simp [parseTrustedNetworks, hcidr]⟩
      | some network =>
          have hrest : ¬ WellFormed cidrs := by
            intro hrest
            refine h fun c hc => ?_
            rcases List.mem_cons.mp hc with rfl | hc
            · rw [hcidr, Option.isSome_some]
            · exact hrest c hc
          obtain ⟨bad, hbad, hnone, herror⟩ := ih hrest
          refine ⟨bad, List.mem_cons_of_mem _ hbad, hnone, ?_⟩
          simp [parseTrustedNetworks, hcidr, herror, Except.map]

/-- Parsing keeps the entries in order, one network each. -/
theorem map_ipNetwork_of_parse {cidrs : List String} {networks : List IPNetwork}
    (h : parseTrustedNetworks cidrs = .ok networks) :
    cidrs.map ipNetwork = networks.map some := by
  induction cidrs generalizing networks with
  | nil =>
      cases h
      rfl
  | cons cidr cidrs ih =>
      cases hcidr : ipNetwork cidr with
      | none => simp [parseTrustedNetworks, hcidr] at h
      | some network =>
          cases hrest : parseTrustedNetworks cidrs with
          | error e => simp [parseTrustedNetworks, hcidr, hrest, Except.map] at h
          | ok rest =>
              simp only [parseTrustedNetworks, hcidr, hrest, Except.map, Except.ok.injEq] at h
              subst h
              simp [hcidr, ih hrest]

theorem entries_map_strip (header : String) :
    (entries header).map strip = entries header := by
  simp [entries]

/-! ## Trusted addresses and outsiders -/

section Networks

variable (networks : List IPNetwork)

def Trusted (text : String) : Prop :=
  ∃ addr, ipAddress text = some addr ∧ ∃ network ∈ networks, network.contains addr = true

instance (text : String) : Decidable (Trusted networks text) :=
  match h : ipAddress text with
  | none => isFalse fun ⟨_, haddr, _⟩ => by simp [h] at haddr
  | some addr =>
      decidable_of_iff (∃ network ∈ networks, network.contains addr = true) <| by
        simp [Trusted, h]

def Outsider (text : String) : Prop :=
  ∃ addr, ipAddress text = some addr ∧ ∀ network ∈ networks, network.contains addr = false

def isOutsider (text : String) : Bool :=
  match ipAddress text with
  | none => false
  | some addr => !networks.any fun network => network.contains addr

theorem isOutsider_iff (text : String) :
    isOutsider networks text = true ↔ Outsider networks text := by
  unfold isOutsider Outsider
  cases ipAddress text <;> simp

instance (text : String) : Decidable (Outsider networks text) :=
  decidable_of_iff _ (isOutsider_iff networks text)

/-- A text that is no outsider is malformed or the address of a trusted proxy. -/
theorem malformed_or_trusted {text : String} (h : isOutsider networks text = false) :
    ipAddress text = none ∨ Trusted networks text := by
  unfold isOutsider at h
  cases haddr : ipAddress text with
  | none => exact .inl rfl
  | some addr =>
      refine .inr ⟨addr, haddr, ?_⟩
      simpa [haddr] using h

end Networks

theorem ipAddress_empty : ipAddress "" = none := by decide

theorem ipAddress_unknown : ipAddress "unknown" = none := by decide

section Readable

variable {cidrs : List String} {networks : List IPNetwork}
  (hnetworks : parseTrustedNetworks cidrs = .ok networks)
include hnetworks

theorem isTrustedProxy_of_address {ip : String} {addr : IPAddress}
    (haddr : ipAddress ip = some addr) :
    isTrustedProxy cidrs ip = .ok (networks.any fun network => network.contains addr) := by
  have hempty : ip ≠ "" := fun h => by simp [h, ipAddress_empty] at haddr
  have hunknown : ip ≠ "unknown" := fun h => by simp [h, ipAddress_unknown] at haddr
  simp [isTrustedProxy, hempty, hunknown, haddr, hnetworks, Except.map]

theorem isTrustedProxy_of_trusted {ip : String} (h : Trusted networks ip) :
    isTrustedProxy cidrs ip = .ok true := by
  obtain ⟨addr, haddr, network, hmem, hcontains⟩ := h
  rw [isTrustedProxy_of_address hnetworks haddr]
  exact congrArg Except.ok (List.any_eq_true.mpr ⟨network, hmem, hcontains⟩)

theorem isTrustedProxy_of_not_trusted {ip : String} (h : ¬ Trusted networks ip) :
    isTrustedProxy cidrs ip = .ok false := by
  cases haddr : ipAddress ip with
  | none => simp [isTrustedProxy, haddr]
  | some addr =>
      rw [isTrustedProxy_of_address hnetworks haddr]
      refine congrArg Except.ok (List.any_eq_false.mpr fun network hmem hcontains => ?_)
      exact h ⟨addr, haddr, network, hmem, hcontains⟩

theorem firstNonTrusted_eq (entries : List String) :
    firstNonTrusted cidrs entries = .ok ((entries.map strip).find? (isOutsider networks)) := by
  induction entries with
  | nil => rfl
  | cons entry rest ih =>
      rw [firstNonTrusted, List.map_cons, List.find?_cons]
      by_cases hempty : strip entry = ""
      · simp [hempty, isOutsider, ipAddress_empty, ih]
      cases haddr : ipAddress (strip entry) with
      | none => simp [hempty, haddr, isOutsider, ih]
      | some addr =>
          rw [isTrustedProxy_of_address hnetworks haddr]
          cases hany : networks.any fun network => network.contains addr <;>
            simp [hempty, haddr, isOutsider, hany, ih]

end Readable

end BackendProdReady.Security.ProxyValidation
