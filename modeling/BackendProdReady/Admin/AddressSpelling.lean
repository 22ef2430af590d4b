import BackendProdReady.Admin.Gate

/-!
# Spellings of an allowed address

CIDR entries are compared as networks, exact entries as texts.  So a client whose
address an exact entry denotes is let in only in the spelling of the entry, unless a
network contains the address.
-/

namespace BackendProdReady.Admin.AddressSpelling

open BackendProdReady.Lib.Text
open BackendProdReady.Lib.IpAddress
open BackendProdReady.Lib.HttpHeaders
open BackendProdReady.Security.ProxyValidation
open BackendProdReady.Admin.AuthBackend
open BackendProdReady.Admin.Gate

/-! ## What the parsed allowlist holds -/

theorem mem_exactIps_iff {entries : List String} {ip : String} :
    ip ∈ (parseAdminAllowedIps entries).exactIps ↔
      (∃ entry ∈ entries, ¬ IsCidr entry ∧ strip entry = ip) ∧ (ipAddress ip).isSome = true := by
  constructor
  · intro h
    obtain ⟨entry, hentry, hkind, hstrip, hvalid⟩ := (parsedFrom entries).exact ip h
    exact ⟨⟨entry, hentry, hkind, hstrip⟩, hvalid⟩
  · rintro ⟨⟨entry, hentry, hkind, rfl⟩, hvalid⟩
    have hslash : ¬ (strip entry).toList.contains '/' = true := by simpa [IsCidr] using hkind
    induction entries with
    | nil => cases hentry
    | cons first rest ih =>
        rw [parseAdminAllowedIps]
        rcases List.mem_cons.mp hentry with rfl | hrest
        · have hblank : strip entry ≠ "" := by
            intro hblank
            rw [hblank, ipAddress_empty] at hvalid
            cases hvalid
          obtain ⟨addr, haddr⟩ := Option.isSome_iff_exists.mp hvalid
          rw [if_neg hblank, if_neg hslash, haddr]
          exact List.mem_cons_self
        · have hmem := ih hrest
          split_ifs
          · exact hmem
          · cases ipNetwork (strip first) with
            | none => exact hmem
            | some network => exact hmem
          · cases ipAddress (strip first) with
            | none => exact hmem
            | some addr => exact List.mem_cons_of_mem _ hmem

theorem mem_networks_iff {entries : List String} {network : IPNetwork} :
    network ∈ (parseAdminAllowedIps entries).networks ↔
      ∃ entry ∈ entries, IsCidr entry ∧ ipNetwork (strip entry) = some network := by
  constructor
  · exact (parsedFrom entries).network network
  · rintro ⟨entry, hentry, hkind, hnetwork⟩
    have hslash : (strip entry).toList.contains '/' = true := by simpa [IsCidr] using hkind
    induction entries with
    | nil => cases hentry
    | cons first rest ih =>
        rw [parseAdminAllowedIps]
        rcases List.mem_cons.mp hentry with rfl | hrest
        · have hblank : strip entry ≠ "" := by
            intro hblank
            simp [hblank] at hslash
          rw [if_neg hblank, if_pos hslash, hnetwork]
          exact List.mem_cons_self
        · have hmem := ih hrest
          split_ifs
          · exact hmem
          · cases ipNetwork (strip first) with
            | none => exact hmem
            | some network => exact List.mem_cons_of_mem _ hmem
          · cases ipAddress (strip first) with
            | none => exact hmem
            | some addr => exact hmem

/-! ## Spellings -/

def InNetwork (allowedIps : List String) (addr : IPAddress) : Prop :=
  ∃ entry ∈ allowedIps, IsCidr entry ∧ ∃ network, ipNetwork (strip entry) = some network ∧
    network.contains addr = true

def Spelled (allowedIps : List String) (text : String) : Prop :=
  ∃ entry ∈ allowedIps, ¬ IsCidr entry ∧ strip entry = text

/-- Where an exact entry denotes the address of the text, it is spelled in this way, or a
network contains the address. -/
def SpellingCovered (allowedIps : List String) (text : String) : Prop :=
  ∀ addr, ipAddress text = some addr →
    (∃ entry ∈ allowedIps, ¬ IsCidr entry ∧ ipAddress (strip entry) = some addr) →
    Spelled allowedIps text ∨ InNetwork allowedIps addr

theorem allows_iff {allowedIps : List String} {text : String} :
    (parseAdminAllowedIps allowedIps).allows text = true ↔
      ∃ addr, ipAddress text = some addr ∧
        (Spelled allowedIps text ∨ InNetwork allowedIps addr) := by
  unfold AllowedIps.allows
  split_ifs with hexact
  · obtain ⟨hspelled, hvalid⟩ := mem_exactIps_iff.mp hexact
    obtain ⟨addr, haddr⟩ := Option.isSome_iff_exists.mp hvalid
    exact iff_of_true rfl ⟨addr, haddr, .inl hspelled⟩
  · cases haddr : ipAddress text with
    | none => simp
    | some addr =>
        have hspelled : ¬ Spelled allowedIps text := by
          intro hspelled
          exact hexact (mem_exactIps_iff.mpr ⟨hspelled, by rw [haddr]; rfl⟩)
        simp only [Option.some.injEq, exists_eq_left', hspelled, false_or, List.any_eq_true,
          mem_networks_iff, InNetwork]
        constructor
        · rintro ⟨network, ⟨entry, hentry, hkind, hparse⟩, hcontains⟩
          exact ⟨entry, hentry, hkind, network, hparse, hcontains⟩
        · rintro ⟨entry, hentry, hkind, network, hparse, hcontains⟩
          exact ⟨network, ⟨entry, hentry, hkind, hparse⟩, hcontains⟩

/-- The answer is that of the address exactly when its spelling is covered. -/
theorem allows_iff_listed {allowedIps : List String} {text : String} :
    ((parseAdminAllowedIps allowedIps).allows text = true ↔ Listed allowedIps text) ↔
      SpellingCovered allowedIps text := by
  rw [allows_iff]
  constructor
  · intro h addr haddr ⟨entry, hentry, hkind, hdenotes⟩
    obtain ⟨addr', haddr', hcovered⟩ := h.mpr
      ⟨addr, haddr, entry, hentry, .inl ⟨hkind, hdenotes⟩⟩
    rw [haddr] at haddr'
    rwa [Option.some.inj haddr']
  · intro hcovered
    constructor
    · rintro ⟨addr, haddr, ⟨entry, hentry, hkind, rfl⟩ | ⟨entry, hentry, hnetwork⟩⟩
      · exact ⟨addr, haddr, entry, hentry, .inl ⟨hkind, haddr⟩⟩
      · exact ⟨addr, haddr, entry, hentry, .inr hnetwork⟩
    · rintro ⟨addr, haddr, entry, hentry, ⟨hkind, hdenotes⟩ | hnetwork⟩
      · exact ⟨addr, haddr, hcovered addr haddr ⟨entry, hentry, hkind, hdenotes⟩⟩
      · exact ⟨addr, haddr, .inr ⟨entry, hentry, hnetwork⟩⟩

/-! ## Two requests -/

section Requests

variable {ε : Type} {settings : Settings} {request other : Request ε} {text otherText : String}

/-- The two requests get the same answer, and it is that of their address. -/
structure SpellingFree (settings : Settings) (request other : Request ε) (text : String) :
    Prop where
  same : checkIpAllowed settings request = checkIpAllowed settings other
  listed : settings.adminAllowedIps ≠ [] →
    (checkIpAllowed settings request = .ok true ↔ Listed settings.adminAllowedIps text)

theorem checkIpAllowed_eq (hne : settings.adminAllowedIps ≠ [])
    (hclient : getClientIp settings request = .ok text) :
    checkIpAllowed settings request =
      .ok ((parseAdminAllowedIps settings.adminAllowedIps).allows text) := by
  unfold checkIpAllowed
  split
  · rename_i hnil
    exact absurd hnil hne
  · rw [hclient]
    rfl

theorem listed_congr (hsame : ipAddress text = ipAddress otherText) (allowedIps : List String) :
    Listed allowedIps text ↔ Listed allowedIps otherText := by
  rw [Listed, hsame, Listed]

theorem spellingFree_iff (hclient : getClientIp settings request = .ok text)
    (hother : getClientIp settings other = .ok otherText)
    (hsame : ipAddress text = ipAddress otherText) :
    SpellingFree settings request other text ↔
      (settings.adminAllowedIps ≠ [] →
        SpellingCovered settings.adminAllowedIps text ∧
          SpellingCovered settings.adminAllowedIps otherText) := by
  by_cases hne : settings.adminAllowedIps = []
  · have hopen : ∀ r : Request ε, checkIpAllowed settings r = .ok true := by
      intro r
      simp [checkIpAllowed, hne]
    exact iff_of_true ⟨by rw [hopen, hopen], absurd hne⟩ (absurd hne)
  · have hrequest := checkIpAllowed_eq hne hclient
    have hrequest' := checkIpAllowed_eq hne hother
    have hlisted := listed_congr hsame settings.adminAllowedIps
    rw [forall_prop_of_true hne, ← allows_iff_listed, ← allows_iff_listed]
    constructor
    · intro hfree
      have hanswer := hfree.listed hne
      have heq := hfree.same
      rw [hrequest, Except.ok.injEq] at hanswer
      rw [hrequest, hrequest', Except.ok.injEq] at heq
      exact ⟨hanswer, by rw [← heq, hanswer, hlisted]⟩
    · rintro ⟨hanswer, hanswer'⟩
      constructor
      · rw [hrequest, hrequest', Except.ok.injEq, Bool.eq_iff_iff, hanswer, hanswer', hlisted]
      · rw [hrequest, Except.ok.injEq]
        exact fun _ => hanswer

end Requests

/-! ## Two spellings of one address -/

def upperCase : Settings := ⟨["2001:DB8::1"], false, []⟩

def directRequest (host : String) : Request Unit := ⟨[], some host, none, fun _ => .ok "/"⟩

theorem spellingFree_long_form :
    SpellingFree upperCase (directRequest "2001:db8::2") (directRequest "2001:0db8:0::2")
        "2001:db8::2" ↔
      (upperCase.adminAllowedIps ≠ [] →
        SpellingCovered upperCase.adminAllowedIps "2001:db8::2" ∧
          SpellingCovered upperCase.adminAllowedIps "2001:0db8:0::2") :=
  spellingFree_iff rfl rfl (by decide +kernel)

/-- The entry lets its own spelling in and keeps the lower case out. -/
theorem lower_case_refused :
    ipAddress "2001:DB8::1" = ipAddress "2001:db8::1" ∧
      checkIpAllowed upperCase (directRequest "2001:DB8::1") = .ok true ∧
      checkIpAllowed upperCase (directRequest "2001:db8::1") = .ok false ∧
      ¬ SpellingFree upperCase (directRequest "2001:DB8::1") (directRequest "2001:db8::1")
        "2001:DB8::1" := by
  have hentry : checkIpAllowed upperCase (directRequest "2001:DB8::1") = .ok true := by
    decide +kernel
  have hlower : checkIpAllowed upperCase (directRequest "2001:db8::1") = .ok false := by
    decide +kernel
  refine ⟨by decide +kernel, hentry, hlower, fun hfree => ?_⟩
  have hsame := hfree.same
  rw [hentry, hlower] at hsame
  cases hsame

end BackendProdReady.Admin.AddressSpelling
