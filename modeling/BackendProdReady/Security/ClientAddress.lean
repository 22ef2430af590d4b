import BackendProdReady.Security.ProxyValidation

/-!
# What a client can do to its extracted address

The walk of `extract_client_ip_secure` returns the entry at the last outsider
of the header, or the leftmost entry, or the peer.  Two results follow: text
that a client prepends to the header changes nothing once the header holds an
outsider, and everything to the right of the returned entry is blank,
malformed or the address of a trusted proxy.
-/

namespace BackendProdReady.Security.ClientAddress

open BackendProdReady.Lib.Text
open BackendProdReady.Lib.IpAddress
open BackendProdReady.Security.ProxyValidation

/-! ## The last element with a property -/

/-- The position of the last element that satisfies `p`. -/
def lastIndex? {α : Type} (p : α → Bool) : List α → Option Nat
  | [] => none
  | x :: xs =>
      match lastIndex? p xs with
      | some i => some (i + 1)
      | none => if p x then some 0 else none

theorem lastIndex?_eq_none {α : Type} {p : α → Bool} {xs : List α}
    (h : lastIndex? p xs = none) : ∀ x ∈ xs, p x = false := by
  induction xs with
  | nil => simp
  | cons x xs ih =>
      rw [lastIndex?] at h
      cases hrest : lastIndex? p xs with
      | some i => simp [hrest] at h
      | none =>
          have hx : p x = false := by simpa [hrest] using h
          simpa [hx] using ih hrest

theorem lastIndex?_eq_some {α : Type} {p : α → Bool} {xs : List α} {i : Nat}
    (h : lastIndex? p xs = some i) :
    (∃ x, xs[i]? = some x ∧ p x = true) ∧
      ∀ j x, i < j → xs[j]? = some x → p x = false := by
  induction xs generalizing i with
  | nil => simp [lastIndex?] at h
  | cons x xs ih =>
      rw [lastIndex?] at h
      cases hrest : lastIndex? p xs with
      | some k =>
          simp only [hrest, Option.some.injEq] at h
          subst h
          obtain ⟨hfound, hlater⟩ := ih hrest
          refine ⟨by simpa using hfound, fun j y hj hy => ?_⟩
          obtain ⟨j, rfl⟩ : ∃ m, j = m + 1 := ⟨j - 1, by omega⟩
          exact hlater j y (by omega) (by simpa using hy)
      | none =>
          simp only [hrest] at h
          split_ifs at h with hx
          obtain rfl : 0 = i := Option.some.inj h
          refine ⟨⟨x, rfl, hx⟩, fun j y hj hy => ?_⟩
          obtain ⟨j, rfl⟩ : ∃ m, j = m + 1 := ⟨j - 1, by omega⟩
          exact lastIndex?_eq_none hrest y (List.mem_of_getElem? (by simpa using hy))

theorem find?_reverse_eq {α : Type} (p : α → Bool) (xs : List α) :
    xs.reverse.find? p = (lastIndex? p xs).bind (xs[·]?) := by
  induction xs with
  | nil => rfl
  | cons x xs ih =>
      rw [List.reverse_cons, List.find?_append, ih, lastIndex?]
      cases hrest : lastIndex? p xs with
      | none => by_cases hx : p x = true <;> simp [hx]
      | some i =>
          obtain ⟨⟨y, hy, -⟩, -⟩ := lastIndex?_eq_some hrest
          simp [hy]

theorem lastIndex?_append {α : Type} {p : α → Bool} (xs : List α) {ys : List α} {i : Nat}
    (h : lastIndex? p ys = some i) : lastIndex? p (xs ++ ys) = some (xs.length + i) := by
  induction xs with
  | nil => simpa using h
  | cons x xs ih =>
      rw [List.cons_append, lastIndex?, ih, List.length_cons]
      simp only [Option.some.injEq]
      omega

/-! ## Where the extracted address comes from -/

inductive Origin
  | peer
  | entry (position : Nat)
deriving DecidableEq

/-- The last outsider; without one, the leftmost entry if it is an address. -/
def origin (networks : List IPNetwork) (header : String) : Origin :=
  match lastIndex? (isOutsider networks) (entries header) with
  | some position => .entry position
  | none =>
      match (entries header).head? with
      | none => .peer
      | some leftmost => if (ipAddress leftmost).isSome then .entry 0 else .peer

def Origin.text (header directIp : String) : Origin → String
  | .peer => directIp
  | .entry position => (entries header)[position]?.getD ""

section Extraction

variable {cidrs : List String} {networks : List IPNetwork}
  (hnetworks : parseTrustedNetworks cidrs = .ok networks)
include hnetworks

/-- Behind a trusted peer, the extracted address is the text at its origin. -/
theorem extract_of_trusted {directIp header : String} (htrusted : Trusted networks directIp) :
    extractClientIpSecure cidrs (some header) (some directIp) =
      .ok ((origin networks header).text header directIp) := by
  have hdirect : orUnknown (some directIp) = directIp := by
    obtain ⟨addr, haddr, -⟩ := htrusted
    have hne : directIp ≠ "" := fun h => by simp [h, ipAddress_empty] at haddr
    simp [orUnknown]
  by_cases hheader : header = ""
  · subst hheader
    have hpeer : origin networks "" = .peer := by
      simp [origin, entries, split, strip, lastIndex?, isOutsider, ipAddress_empty]
    rw [hpeer]
    simp [extractClientIpSecure, hdirect, Origin.text]
  have hwalk := firstNonTrusted_eq hnetworks (entries header).reverse
  rw [List.map_reverse, entries_map_strip, find?_reverse_eq] at hwalk
  simp only [extractClientIpSecure, hdirect, isTrustedProxy_of_trusted hnetworks htrusted]
  cases hentries : entries header with
  | nil => simp [origin, hentries, lastIndex?, Origin.text]
  | cons leftmost rest =>
      rw [hentries] at hwalk
      have hstrip : strip leftmost = leftmost := by
        have hmap := entries_map_strip header
        rw [hentries, List.map_cons] at hmap
        exact (List.cons.inj hmap).1
      simp only [hwalk, origin, hentries, hstrip]
      cases hlast : lastIndex? (isOutsider networks) (leftmost :: rest) with
      | none => cases haddr : ipAddress leftmost <;> simp [haddr, Origin.text, hentries]
      | some position =>
          obtain ⟨⟨text, htext, -⟩, -⟩ := lastIndex?_eq_some hlast
          simp [htext, Origin.text, hentries]

/-- Any other peer is returned itself, whatever the header says. -/
theorem extract_of_not_trusted {directIp : Option String}
    (h : ∀ d, directIp = some d → ¬ Trusted networks d) (xForwardedFor : Option String) :
    extractClientIpSecure cidrs xForwardedFor directIp = .ok (orUnknown directIp) := by
  have huntrusted : isTrustedProxy cidrs (orUnknown directIp) = .ok false := by
    unfold orUnknown
    split
    · simp [isTrustedProxy]
    · simp [isTrustedProxy]
    · exact isTrustedProxy_of_not_trusted hnetworks (h _ rfl)
  unfold extractClientIpSecure
  split
  · rfl
  · rfl
  · simp [huntrusted]

end Extraction

theorem extract_of_untrusted {cidrs : List String} {xForwardedFor directIp : Option String}
    {clientIp : String} (huntrusted : isTrustedProxy cidrs (orUnknown directIp) ≠ .ok true)
    (h : extractClientIpSecure cidrs xForwardedFor directIp = .ok clientIp) :
    clientIp = orUnknown directIp := by
  unfold extractClientIpSecure at h
  dsimp only at h
  split at h
  · exact (Except.ok.inj h).symm
  · exact (Except.ok.inj h).symm
  · cases htrusted : isTrustedProxy cidrs (orUnknown directIp) with
    | error e => simp [htrusted] at h
    | ok trusted =>
        cases trusted with
        | false => exact (by simpa [htrusted] using h : orUnknown directIp = clientIp).symm
        | true => exact absurd htrusted huntrusted

/-! ## Main results -/

/-- Text a client can write in front of the header changes nothing: neither when
the peer is no trusted proxy, nor when the rest of the header holds an address
outside the trusted networks. -/
theorem spoofed_prefix_ignored {cidrs : List String} {networks : List IPNetwork}
    (hnetworks : parseTrustedNetworks cidrs = .ok networks) :
    (∀ directIp : Option String, (∀ d, directIp = some d → ¬ Trusted networks d) →
      ∀ xForwardedFor,
        extractClientIpSecure cidrs xForwardedFor directIp = .ok (orUnknown directIp)) ∧
    (∀ directIp B : String, Trusted networks directIp →
      (∃ e ∈ split ',' B, Outsider networks (strip e)) →
      ∀ A : String,
        extractClientIpSecure cidrs (some (A ++ "," ++ B)) (some directIp) =
          extractClientIpSecure cidrs (some B) (some directIp)) := by
  refine ⟨fun directIp h xForwardedFor => extract_of_not_trusted hnetworks h xForwardedFor, ?_⟩
  intro directIp B htrusted ⟨e, he, hout⟩ A
  rw [extract_of_trusted hnetworks htrusted, extract_of_trusted hnetworks htrusted]
  have hmem : strip e ∈ entries B := List.mem_map_of_mem he
  obtain ⟨position, hlast⟩ : ∃ i, lastIndex? (isOutsider networks) (entries B) = some i := by
    cases hlast : lastIndex? (isOutsider networks) (entries B) with
    | some i => exact ⟨i, rfl⟩
    | none =>
        have hin := (isOutsider_iff networks (strip e)).mpr hout
        simp [lastIndex?_eq_none hlast _ hmem] at hin
  have hentries : entries (A ++ "," ++ B) = entries A ++ entries B := by
    unfold entries
    rw [split_append (by rfl), List.map_append]
  simp only [origin, hentries, lastIndex?_append _ hlast, hlast, Origin.text]
  rw [List.getElem?_append_right (by omega), Nat.add_sub_cancel_left]

/-- The header a client extends with `1.2.3.4` through two proxies. -/
theorem spoofed_prefix_ignored_two_proxies :
    extractClientIpSecure ["10.0.0.0/8", "127.0.0.0/8"]
        (some ("1.2.3.4" ++ "," ++ "203.0.113.50, 10.0.0.1")) (some "127.0.0.1") =
      extractClientIpSecure ["10.0.0.0/8", "127.0.0.0/8"]
        (some "203.0.113.50, 10.0.0.1") (some "127.0.0.1") := by
  have hnetworks : parseTrustedNetworks ["10.0.0.0/8", "127.0.0.0/8"] =
      .ok [.ofQuad 10 0 0 0 8, .ofQuad 127 0 0 0 8] := by decide
  exact (spoofed_prefix_ignored hnetworks).2 _ _ (by decide)
    ⟨"203.0.113.50", by decide, by decide⟩ _

/-- The extracted address is the text at its origin, and when that is a position
of the header, every well-formed entry to its right is a trusted proxy. -/
theorem chain_of_trust {cidrs : List String} {networks : List IPNetwork} {directIp : String}
    (hnetworks : parseTrustedNetworks cidrs = .ok networks)
    (htrusted : Trusted networks directIp) (header : String) :
    extractClientIpSecure cidrs (some header) (some directIp) =
        .ok ((origin networks header).text header directIp) ∧
      ∀ position, origin networks header = .entry position →
        ∀ j e, position < j → (entries header)[j]? = some e →
          (∃ addr, ipAddress e = some addr) → Trusted networks e := by
  refine ⟨extract_of_trusted hnetworks htrusted, ?_⟩
  intro position horigin j e hj he ⟨addr, haddr⟩
  have hinside : isOutsider networks e = false := by
    unfold origin at horigin
    split at horigin
    · rename_i hlast
      obtain rfl := Origin.entry.inj horigin
      exact (lastIndex?_eq_some hlast).2 j e hj he
    · exact lastIndex?_eq_none ‹_› e (List.mem_of_getElem? he)
  rcases malformed_or_trusted networks hinside with hnone | htrusted
  · simp [hnone] at haddr
  · exact htrusted

theorem chain_of_trust_two_proxies :
    extractClientIpSecure ["10.0.0.0/8", "127.0.0.0/8"] (some "203.0.113.50, 10.0.0.1")
      (some "127.0.0.1") = .ok "203.0.113.50" := by
  have hnetworks : parseTrustedNetworks ["10.0.0.0/8", "127.0.0.0/8"] =
      .ok [.ofQuad 10 0 0 0 8, .ofQuad 127 0 0 0 8] := by decide
  exact (chain_of_trust hnetworks (by decide) _).1

/-- An address with a port is skipped, and the entry to its left is returned. -/
theorem malformed_entry_skipped :
    extractClientIpSecure ["127.0.0.0/8"] (some "1.2.3.4, 203.0.113.50:8080")
        (some "127.0.0.1") = .ok "1.2.3.4" ∧
      entries "1.2.3.4, 203.0.113.50:8080" = ["1.2.3.4", "203.0.113.50:8080"] ∧
      isTrustedProxy ["127.0.0.0/8"] "127.0.0.1" = .ok true ∧
      isTrustedProxy ["127.0.0.0/8"] "203.0.113.50:8080" = .ok false := by
  decide

end BackendProdReady.Security.ClientAddress
