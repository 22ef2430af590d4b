import BackendProdReady.Conf.Settings
import BackendProdReady.Security.ProxyValidation

/-!
# The production policy on TRUSTED_PROXY_CIDRS

`Settings.validate_trusted_proxy_cidrs` compares the configured strings with two
fixed lists of spellings, while the request path compares addresses with the
networks that `ip_network(cidr, strict=False)` builds from them.  The policy is
stated on the networks, as sets of addresses, and the validator is measured
against it.
-/

namespace BackendProdReady.Conf.TrustedProxyCidrs

open BackendProdReady.Lib.IpAddress
open BackendProdReady.Security.ProxyValidation
open BackendProdReady.Conf.Settings

/-! ## The validator -/

def devOnlyDefaults : List String :=
  ["127.0.0.0/8", "::1/128", "172.17.0.0/16", "172.18.0.0/16", "172.19.0.0/16"]

def overlyBroadCidrs : List String :=
  ["10.0.0.0/8", "192.168.0.0/16", "172.16.0.0/12"]

/-- The two `ValueError`s; a set prints its elements in no fixed order. -/
inductive CidrPolicyError
  | onlyDefaults
  | overlyBroad (foundBroad : List String)
deriving DecidableEq

def CidrPolicyError.message : CidrPolicyError → String
  | .onlyDefaults =>
      "TRUSTED_PROXY_CIDRS must be explicitly configured for production. " ++
        "Default CIDRs only include localhost and Docker networks. " ++
        "Configure your specific infrastructure CIDRs (AWS ALB, Cloudflare, etc.) " ++
        "to prevent X-Forwarded-For header spoofing attacks. " ++
        "Example: TRUSTED_PROXY_CIDRS=[\"10.0.0.0/16\"] for AWS VPC."
  | .overlyBroad foundBroad =>
      "Overly broad CIDRs not allowed in production: \x7b" ++
        ", ".intercalate (foundBroad.map fun cidr => "'" ++ cidr ++ "'") ++ "\x7d. " ++
        "These ranges allow any host on the network to spoof X-Forwarded-For headers. " ++
        "Use specific subnet CIDRs instead (e.g., '10.0.1.0/24' for ALB subnet, " ++
        "not '10.0.0.0/8' for entire private network)."

def validateTrustedProxyCidrs (environment : Environment) (configuredCidrs : List String) :
    Except CidrPolicyError Unit :=
  if environment ≠ .prod then .ok ()
  else if configuredCidrs.all (· ∈ devOnlyDefaults) then .error .onlyDefaults
  else
    let foundBroad := overlyBroadCidrs.filter (· ∈ configuredCidrs)
    if foundBroad ≠ [] then .error (.overlyBroad foundBroad) else .ok ()

/-- The lists the validator names: a broad spelling occurs, or nothing but
default spellings. -/
def Named (cidrs : List String) : Prop :=
  (∃ cidr ∈ cidrs, cidr ∈ overlyBroadCidrs) ∨ ∀ cidr ∈ cidrs, cidr ∈ devOnlyDefaults

instance (cidrs : List String) : Decidable (Named cidrs) :=
  inferInstanceAs (Decidable (_ ∨ _))

theorem validateTrustedProxyCidrs_prod (cidrs : List String) :
    validateTrustedProxyCidrs .prod cidrs = .ok () ↔ ¬ Named cidrs := by
  unfold validateTrustedProxyCidrs Named
  rw [if_neg (by simp)]
  by_cases hdefaults : ∀ cidr ∈ cidrs, cidr ∈ devOnlyDefaults
  · rw [if_pos (by simpa using hdefaults)]
    simp only [reduceCtorEq, false_iff, not_not]
    exact .inr hdefaults
  rw [if_neg (by simpa using hdefaults)]
  by_cases hbroad : ∃ cidr ∈ cidrs, cidr ∈ overlyBroadCidrs
  · obtain ⟨cidr, hmem, hcidr⟩ := hbroad
    have hfound : cidr ∈ overlyBroadCidrs.filter (· ∈ cidrs) := by simp [hmem, hcidr]
    rw [if_pos (List.ne_nil_of_mem hfound)]
    simp only [reduceCtorEq, false_iff, not_not]
    exact .inl ⟨cidr, hmem, hcidr⟩
  · have hnone : overlyBroadCidrs.filter (· ∈ cidrs) = [] := by
      rw [List.filter_eq_nil_iff]
      intro cidr hcidr hmem
      exact hbroad ⟨cidr, by simpa using hmem, hcidr⟩
    rw [if_neg (by simp [hnone])]
    simp [hbroad, hdefaults]

/-! ## The policy on networks -/

def overlyBroadNetworks : List IPNetwork :=
  [.ofQuad 10 0 0 0 8, .ofQuad 192 168 0 0 16, .ofQuad 172 16 0 0 12]

def devOnlyNetworks : List IPNetwork :=
  [.ofQuad 127 0 0 0 8, .around .v6 ⟨1, by decide⟩ ⟨128, Nat.le_refl _⟩,
    .ofQuad 172 17 0 0 16, .ofQuad 172 18 0 0 16, .ofQuad 172 19 0 0 16]

theorem parse_overlyBroadCidrs :
    parseTrustedNetworks overlyBroadCidrs = .ok overlyBroadNetworks := by decide

theorem parse_devOnlyDefaults :
    parseTrustedNetworks devOnlyDefaults = .ok devOnlyNetworks := by decide

/-- No network holds the whole of a broad one, and some network holds an address
outside the development defaults. -/
def CidrPolicy (networks : List IPNetwork) : Prop :=
  (∀ network ∈ networks, ∀ broad ∈ overlyBroadNetworks,
    ¬ ∀ addr, broad.contains addr = true → network.contains addr = true) ∧
  ∃ network ∈ networks,
    ¬ ∀ addr, network.contains addr = true → ∃ d ∈ devOnlyNetworks, d.contains addr = true

/-- A broad network begins in `network`, whose prefix is no longer. -/
def Wide (network : IPNetwork) : Prop :=
  ∃ broad ∈ overlyBroadNetworks,
    network.prefixlen ≤ broad.prefixlen ∧ network.contains broad.first = true

instance (network : IPNetwork) : Decidable (Wide network) :=
  inferInstanceAs (Decidable (∃ _ ∈ _, _))

def Inside (network : IPNetwork) : Prop :=
  ∃ d ∈ devOnlyNetworks, d.contains network.first = true

instance (network : IPNetwork) : Decidable (Inside network) :=
  inferInstanceAs (Decidable (∃ _ ∈ _, _))

/-- Where an entry names a wide network, one of the broad spellings occurs; where
every entry names a network inside the defaults, every entry has a default spelling. -/
structure SpelledAsCompared (cidrs : List String) : Prop where
  wide : (∃ cidr ∈ cidrs, ∃ network ∈ ipNetwork cidr, Wide network) →
    ∃ cidr ∈ cidrs, cidr ∈ overlyBroadCidrs
  inside : (∀ cidr ∈ cidrs, ∃ network ∈ ipNetwork cidr, Inside network) →
    ∀ cidr ∈ cidrs, cidr ∈ devOnlyDefaults

/-! ## From sets of addresses to prefixes -/

theorem mem_docker_of_contains {addr : IPAddress}
    (h : (IPNetwork.ofQuad 172 18 0 0 15).contains addr = true) :
    (IPNetwork.ofQuad 172 18 0 0 16).contains addr = true ∨
      (IPNetwork.ofQuad 172 19 0 0 16).contains addr = true := by
  simp only [IPNetwork.contains_iff] at h ⊢
  obtain ⟨hfamily, hquot⟩ := h
  have hquot : addr.ip / 2 ^ 17 = 22025 := hquot
  have hhalf : addr.ip / 2 ^ 16 = 44050 ∨ addr.ip / 2 ^ 16 = 44051 := by omega
  exact hhalf.imp (fun h => ⟨hfamily, h⟩) (fun h => ⟨hfamily, h⟩)

/-- Every default block but 172.18.0.0/16 has an odd index, so a network that
starts in it lies in it; one that starts in 172.18.0.0/16 may also cover
172.19.0.0/16. -/
theorem included_of_first {network : IPNetwork} (h : Inside network) :
    ∀ addr, network.contains addr = true → ∃ d ∈ devOnlyNetworks, d.contains addr = true := by
  obtain ⟨d, hd, hfirst⟩ := h
  simp only [devOnlyNetworks, List.mem_cons, List.not_mem_nil, or_false] at hd
  rcases hd with rfl | rfl | rfl | rfl | rfl
  · exact fun addr hin => ⟨_, by simp [devOnlyNetworks],
      IPNetwork.covers_of_odd (by decide) hfirst addr hin⟩
  · exact fun addr hin => ⟨_, by simp [devOnlyNetworks],
      IPNetwork.covers_of_odd (by decide) hfirst addr hin⟩
  · exact fun addr hin => ⟨_, by simp [devOnlyNetworks],
      IPNetwork.covers_of_odd (by decide) hfirst addr hin⟩
  · intro addr hin
    have hparent : (IPNetwork.ofQuad 172 18 0 0 15).contains network.first = true := by
      have hhalf := (IPNetwork.subset_iff (.ofQuad 172 18 0 0 16) (.ofQuad 172 18 0 0 15)).mpr
        (by decide)
      exact hhalf _ hfirst
    have hcovered := IPNetwork.covers_of_odd (by decide) hparent addr hin
    rcases mem_docker_of_contains hcovered with hdocker | hdocker
    · exact ⟨_, by simp [devOnlyNetworks], hdocker⟩
    · exact ⟨_, by simp [devOnlyNetworks], hdocker⟩
  · exact fun addr hin => ⟨_, by simp [devOnlyNetworks],
      IPNetwork.covers_of_odd (by decide) hfirst addr hin⟩

theorem included_iff (network : IPNetwork) :
    (∀ addr, network.contains addr = true → ∃ d ∈ devOnlyNetworks, d.contains addr = true) ↔
      Inside network :=
  ⟨fun h => h _ network.contains_first, included_of_first⟩

theorem wide_iff (network : IPNetwork) :
    Wide network ↔ ∃ broad ∈ overlyBroadNetworks,
      ∀ addr, broad.contains addr = true → network.contains addr = true :=
  exists_congr fun _ => and_congr_right fun _ => (IPNetwork.subset_iff _ _).symm

theorem cidrPolicy_iff (networks : List IPNetwork) :
    CidrPolicy networks ↔
      (∀ network ∈ networks, ¬ Wide network) ∧ ∃ network ∈ networks, ¬ Inside network := by
  refine and_congr ?_ ?_
  · refine forall₂_congr fun network _ => ?_
    rw [wide_iff, not_exists]
    exact forall_congr' fun broad => not_and.symm
  · exact exists_congr fun network => and_congr_right fun _ => not_congr (included_iff network)

/-! ## Spellings the validator knows -/

theorem not_wide_of_devOnly :
    ∀ cidr ∈ devOnlyDefaults, ∀ network ∈ ipNetwork cidr, ¬ Wide network := by decide

theorem not_inside_of_broad :
    ∀ cidr ∈ overlyBroadCidrs, ∀ network ∈ ipNetwork cidr, ¬ Inside network := by decide

/-- The names decide both questions in a list the validator rejects. -/
theorem spelledAsCompared_of_named {cidrs : List String} (h : Named cidrs) :
    SpelledAsCompared cidrs := by
  rcases h with ⟨broad, hmem, hbroad⟩ | hdefaults
  · refine ⟨fun _ => ⟨broad, hmem, hbroad⟩, fun hinside => ?_⟩
    obtain ⟨network, hnetwork, hin⟩ := hinside broad hmem
    exact absurd hin (not_inside_of_broad broad hbroad network hnetwork)
  · refine ⟨?_, fun _ => hdefaults⟩
    rintro ⟨cidr, hmem, network, hnetwork, hwide⟩
    exact absurd hwide (not_wide_of_devOnly cidr (hdefaults cidr hmem) network hnetwork)

theorem cidrPolicy_of_spelledAsCompared {cidrs : List String} {networks : List IPNetwork}
    (hparse : cidrs.map ipNetwork = networks.map some) (hspelled : SpelledAsCompared cidrs)
    (hnamed : ¬ Named cidrs) : CidrPolicy networks := by
  obtain ⟨hbroad, hdefaults⟩ := not_or.mp hnamed
  rw [cidrPolicy_iff]
  constructor
  · intro network hnetwork hwide
    have hentry : some network ∈ cidrs.map ipNetwork := hparse ▸ List.mem_map_of_mem hnetwork
    obtain ⟨cidr, hcidr, heq⟩ := List.mem_map.mp hentry
    exact hbroad (hspelled.wide ⟨cidr, hcidr, network, heq, hwide⟩)
  · by_contra hall
    refine hdefaults (hspelled.inside fun cidr hcidr => ?_)
    have hentry : ipNetwork cidr ∈ networks.map some := hparse ▸ List.mem_map_of_mem hcidr
    obtain ⟨network, hnetwork, heq⟩ := List.mem_map.mp hentry
    exact ⟨network, heq.symm, not_not.mp fun hin => hall ⟨network, hnetwork, hin⟩⟩

theorem spelledAsCompared_of_cidrPolicy {cidrs : List String} {networks : List IPNetwork}
    (hparse : cidrs.map ipNetwork = networks.map some) (hpolicy : CidrPolicy networks) :
    SpelledAsCompared cidrs := by
  obtain ⟨hwide, outside, houtside, hnotInside⟩ := (cidrPolicy_iff networks).mp hpolicy
  constructor
  · rintro ⟨cidr, hcidr, network, hnetwork, hin⟩
    have hmem : some network ∈ networks.map some := by
      rw [← hparse]
      exact List.mem_map.mpr ⟨cidr, hcidr, hnetwork⟩
    exact absurd hin (hwide network (by simpa using hmem))
  · intro hinside
    have hentry : some outside ∈ cidrs.map ipNetwork := hparse ▸ List.mem_map_of_mem houtside
    obtain ⟨cidr, hcidr, heq⟩ := List.mem_map.mp hentry
    obtain ⟨network, hnetwork, hin⟩ := hinside cidr hcidr
    obtain rfl : network = outside := Option.some.inj (hnetwork.symm.trans heq)
    exact absurd hin hnotInside

/-! ## Main result -/

/-- In production the validator enforces the policy exactly on the lists with an
entry that is no network and on those that spell the refused networks the way it
compares them. -/
theorem production_policy (cidrs : List String) :
    (validateTrustedProxyCidrs .prod cidrs = .ok () →
        ∀ networks, parseTrustedNetworks cidrs = .ok networks → CidrPolicy networks) ↔
      (∃ cidr ∈ cidrs, ipNetwork cidr = none) ∨ SpelledAsCompared cidrs := by
  rw [validateTrustedProxyCidrs_prod]
  constructor
  · intro h
    by_cases hwell : WellFormed cidrs
    · obtain ⟨networks, hparse⟩ := parse_of_wellFormed hwell
      refine .inr ?_
      by_cases hnamed : Named cidrs
      · exact spelledAsCompared_of_named hnamed
      · exact spelledAsCompared_of_cidrPolicy (map_ipNetwork_of_parse hparse)
          (h hnamed networks hparse)
    · obtain ⟨cidr, hcidr, hnone, -⟩ := parse_of_not_wellFormed hwell
      exact .inl ⟨cidr, hcidr, hnone⟩
  · rintro (⟨cidr, hcidr, hnone⟩ | hspelled) hnamed networks hparse
    · have hentry : ipNetwork cidr ∈ networks.map some :=
        map_ipNetwork_of_parse hparse ▸ List.mem_map_of_mem hcidr
      simp [hnone] at hentry
    · exact cidrPolicy_of_spelledAsCompared (map_ipNetwork_of_parse hparse) hspelled hnamed

/-- The whole of 10.0.0.0/8 in netmask notation is accepted. -/
theorem netmask_spelling_accepted :
    validateTrustedProxyCidrs .prod ["10.0.0.0/255.0.0.0"] = .ok () ∧
      parseTrustedNetworks ["10.0.0.0/255.0.0.0"] = .ok [.ofQuad 10 0 0 0 8] ∧
      IPNetwork.ofQuad 10 0 0 0 8 ∈ overlyBroadNetworks ∧
      ¬ CidrPolicy [.ofQuad 10 0 0 0 8] := by
  rw [cidrPolicy_iff]
  decide

example : validateTrustedProxyCidrs .prod ["10.0.0.0/8"] =
    .error (.overlyBroad ["10.0.0.0/8"]) := by decide

example : ¬ Wide (.ofQuad 10 0 1 0 24) ∧ ¬ Inside (.ofQuad 10 0 1 0 24) := by decide

end BackendProdReady.Conf.TrustedProxyCidrs
