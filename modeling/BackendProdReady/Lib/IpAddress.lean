import BackendProdReady.Lib.PrefixBlock
import BackendProdReady.Lib.Text

/-!
# The `ipaddress` module of the Python library

`ip_address(text)` and `ip_network(text, strict=False)` as CPython parses them:
dotted quads without leading zeros, `::` compression, IPv4 suffixes, scope ids,
and prefix lengths, netmasks or hostmasks behind a slash.  `none` stands for the
`ValueError` a text that is neither family raises.  Parsed values carry their
range, so membership is arithmetic on prefixes.
-/

namespace BackendProdReady.Lib.IpAddress

open BackendProdReady.Lib.Text
open BackendProdReady.Lib.PrefixBlock

inductive Family
  | v4
  | v6
deriving DecidableEq

def Family.width : Family → Nat
  | .v4 => 32
  | .v6 => 128

structure IPAddress where
  family : Family
  ip : Nat
  scopeId : Option String
  ip_lt : ip < 2 ^ family.width
deriving DecidableEq

/-- A network keeps its first address; its prefix length fits the family. -/
structure IPNetwork where
  family : Family
  networkAddress : Nat
  prefixlen : Nat
  prefixlen_le : prefixlen ≤ family.width
  networkAddress_lt : networkAddress < 2 ^ family.width
  aligned : networkAddress &&& netmask family.width prefixlen = networkAddress
deriving DecidableEq

/-! ## IPv4 text -/

def parseOctet (octetStr : String) : Option (Fin 256) :=
  if !isAsciiDigits octetStr then none
  else if octetStr.length > 3 then none
  else if octetStr ≠ "0" ∧ octetStr.toList.head? = some '0' then none
  else if h : digitsValue octetStr ≤ 255 then some ⟨digitsValue octetStr, by omega⟩
  else none

def ipv4IntFromString (ipStr : String) : Option (Fin (2 ^ 32)) :=
  match (split '.' ipStr).mapM parseOctet with
  | some [a, b, c, d] =>
      some ⟨a * 2 ^ 24 + b * 2 ^ 16 + c * 2 ^ 8 + d, by omega⟩
  | _ => none

def ipv4Address (address : String) : Option (Fin (2 ^ 32)) :=
  if address.toList.contains '/' then none else ipv4IntFromString address

/-! ## IPv6 text -/

def isHexDigit (c : Char) : Bool :=
  c.isDigit || ('a' ≤ c && c ≤ 'f') || ('A' ≤ c && c ≤ 'F')

def hexDigitValue (c : Char) : Nat :=
  if c.isDigit then c.toNat - 48 else if 'a' ≤ c then c.toNat - 87 else c.toNat - 55

def hexValue (cs : List Char) : Nat :=
  cs.foldl (fun acc c => 16 * acc + hexDigitValue c) 0

theorem hexDigitValue_lt {c : Char} (h : isHexDigit c = true) : hexDigitValue c < 16 := by
  have h0 : '0'.val.toNat = 48 := rfl
  have h9 : '9'.val.toNat = 57 := rfl
  have ha : 'a'.val.toNat = 97 := rfl
  have hf : 'f'.val.toNat = 102 := rfl
  have hA : 'A'.val.toNat = 65 := rfl
  have hF : 'F'.val.toNat = 70 := rfl
  simp only [isHexDigit, Char.isDigit, Bool.or_eq_true, Bool.and_eq_true, decide_eq_true_eq,
    Char.le_def, ge_iff_le, UInt32.le_iff_toNat_le] at h
  simp only [hexDigitValue, Char.isDigit, Char.le_def, ge_iff_le, UInt32.le_iff_toNat_le,
    Char.toNat, Bool.and_eq_true, decide_eq_true_eq]
  split_ifs <;> omega

theorem hexValue_lt {cs : List Char} (h : cs.all isHexDigit = true) :
    hexValue cs < 16 ^ cs.length := by
  have hfold : ∀ (ds : List Char) (acc k : Nat), (∀ c ∈ ds, isHexDigit c = true) →
      acc < 16 ^ k →
      ds.foldl (fun acc c => 16 * acc + hexDigitValue c) acc < 16 ^ (k + ds.length) := by
    intro ds
    induction ds with
    | nil => intro acc k _ hacc; simpa using hacc
    | cons d ds ih =>
        intro acc k hds hacc
        have hd := hexDigitValue_lt (hds d (by simp))
        have hnext : 16 * acc + hexDigitValue d < 16 ^ (k + 1) := by
          rw [Nat.pow_succ]
          omega
        have hrest := ih _ (k + 1) (fun c hc => hds c (by simp [hc])) hnext
        simpa [Nat.add_assoc, Nat.add_comm 1] using hrest
  simpa [hexValue] using hfold cs 0 0 (by simpa using h) (by simp)

def parseHextet (hextetStr : String) : Option (Fin (2 ^ 16)) :=
  if h : hextetStr ≠ "" ∧ hextetStr.toList.all isHexDigit = true ∧
      hextetStr.toList.length ≤ 4 then
    some ⟨hexValue hextetStr.toList, by
      have hlt := hexValue_lt h.2.1
      have hpow : 16 ^ hextetStr.toList.length ≤ 16 ^ 4 :=
        Nat.pow_le_pow_right (by omega) h.2.2
      omega⟩
  else none

/-- `'%x' % n`. -/
def formatHex (n : Nat) : String := String.ofList (Nat.toDigits 16 n)

/-- An IPv4-style suffix becomes two hextets. -/
def convertIpv4Suffix (parts : List String) : Option (List String) :=
  match parts.getLast? with
  | none => none
  | some last =>
      if last.toList.contains '.' then
        (ipv4Address last).map fun ipv4Int =>
          parts.dropLast ++
            [formatHex ((ipv4Int.val >>> 16) &&& 0xFFFF), formatHex (ipv4Int.val &&& 0xFFFF)]
      else some parts

/-- The empty parts that are not at either end: where `::` stands. -/
def skipIndices (parts : List String) : List Nat :=
  (List.range parts.length).filter fun i =>
    1 ≤ i && i + 1 < parts.length && parts[i]? == some ""

/-- How many parts stand before the `::`, how many zero hextets it covers, and
how many parts stand after it. -/
def layout (parts : List String) : Option (Nat × Nat × Nat) :=
  match skipIndices parts with
  | [] =>
      if parts.length = 8 ∧ parts.head? ≠ some "" ∧ parts.getLast? ≠ some "" then
        some (8, 0, 0)
      else none
  | [skipIndex] =>
      let partsHi := if parts.head? = some "" then skipIndex - 1 else skipIndex
      let partsLo :=
        if parts.getLast? = some "" then parts.length - skipIndex - 2
        else parts.length - skipIndex - 1
      if parts.head? = some "" ∧ partsHi ≠ 0 then none
      else if parts.getLast? = some "" ∧ partsLo ≠ 0 then none
      else if 8 ≤ partsHi + partsLo then none
      else some (partsHi, 8 - (partsHi + partsLo), partsLo)
  | _ => none

def pushHextet (ipInt : Nat) (hextet : Fin (2 ^ 16)) : Nat := (ipInt <<< 16) ||| hextet

def joinHextets (hi : List (Fin (2 ^ 16))) (partsSkipped : Nat) (lo : List (Fin (2 ^ 16))) :
    Nat :=
  lo.foldl pushHextet (hi.foldl pushHextet 0 <<< (16 * partsSkipped))

theorem foldl_pushHextet_lt (hextets : List (Fin (2 ^ 16))) (ipInt k : Nat)
    (h : ipInt < 2 ^ k) : hextets.foldl pushHextet ipInt < 2 ^ (k + 16 * hextets.length) := by
  induction hextets generalizing ipInt k with
  | nil => simpa using h
  | cons hextet hextets ih =>
      have hshift : ipInt <<< 16 < 2 ^ (k + 16) := by
        rw [Nat.shiftLeft_eq, Nat.pow_add]
        exact Nat.mul_lt_mul_of_pos_right h (by decide)
      have hlow : hextet.val < 2 ^ (k + 16) :=
        hextet.isLt.trans_le (Nat.pow_le_pow_right (by decide) (by omega))
      have hrest := ih _ (k + 16) (Nat.or_lt_two_pow hshift hlow)
      rw [List.foldl_cons, List.length_cons,
        show k + 16 * (hextets.length + 1) = k + 16 + 16 * hextets.length by omega]
      exact hrest

theorem joinHextets_lt {hi lo : List (Fin (2 ^ 16))} {partsSkipped : Nat}
    (h : hi.length + partsSkipped + lo.length ≤ 8) :
    joinHextets hi partsSkipped lo < 2 ^ 128 := by
  have hhi : hi.foldl pushHextet 0 < 2 ^ (16 * hi.length) := by
    simpa using foldl_pushHextet_lt hi 0 0 (by simp)
  have hshift : hi.foldl pushHextet 0 <<< (16 * partsSkipped) <
      2 ^ (16 * hi.length + 16 * partsSkipped) := by
    rw [Nat.shiftLeft_eq, Nat.pow_add]
    exact Nat.mul_lt_mul_of_pos_right hhi (Nat.two_pow_pos _)
  exact (foldl_pushHextet_lt lo _ _ hshift).trans_le
    (Nat.pow_le_pow_right (by decide) (by omega))

theorem length_of_mapM {α β : Type} {f : α → Option β} {xs : List α} {ys : List β}
    (h : xs.mapM f = some ys) : ys.length = xs.length := by
  induction xs generalizing ys with
  | nil =>
      simp only [List.mapM_nil, Option.pure_def, Option.some.injEq] at h
      simp [← h]
  | cons x xs ih =>
      simp only [List.mapM_cons, Option.bind_eq_bind, Option.bind_eq_some_iff, Option.pure_def,
        Option.some.injEq] at h
      obtain ⟨y, -, zs, hzs, rfl⟩ := h
      simp [ih hzs]

theorem layout_sum_le {parts : List String} {partsHi partsSkipped partsLo : Nat}
    (h : layout parts = some (partsHi, partsSkipped, partsLo)) :
    partsHi + partsSkipped + partsLo ≤ 8 := by
  unfold layout at h
  split at h
  · split_ifs at h
    simp only [Option.some.injEq, Prod.mk.injEq] at h
    omega
  · dsimp only at h
    split_ifs at h <;> simp only [Option.some.injEq, Prod.mk.injEq] at h <;> omega
  · cases h

/-- The hextets before and after the `::`, and the number of zeros it covers. -/
def hextets (ipStr : String) :
    Option (List (Fin (2 ^ 16)) × Nat × List (Fin (2 ^ 16))) :=
  if (split ':' ipStr).length < 3 then none
  else do
    let parts ← convertIpv4Suffix (split ':' ipStr)
    if 9 < parts.length then none
    else
      let (partsHi, partsSkipped, partsLo) ← layout parts
      let hi ← (parts.take partsHi).mapM parseHextet
      let lo ← (parts.drop (parts.length - partsLo)).mapM parseHextet
      some (hi, partsSkipped, lo)

theorem hextets_sum_le {ipStr : String} {hi lo : List (Fin (2 ^ 16))} {partsSkipped : Nat}
    (h : hextets ipStr = some (hi, partsSkipped, lo)) :
    hi.length + partsSkipped + lo.length ≤ 8 := by
  unfold hextets at h
  split at h
  · cases h
  simp only [Option.bind_eq_bind, Option.bind_eq_some_iff] at h
  obtain ⟨parts, -, h⟩ := h
  split at h
  · cases h
  simp only [Option.bind_eq_some_iff] at h
  obtain ⟨⟨partsHi, skipped, partsLo⟩, hlayout, his, hhi, los, hlo, h⟩ := h
  simp only [Option.some.injEq, Prod.mk.injEq] at h
  obtain ⟨rfl, rfl, rfl⟩ := h
  have hsum := layout_sum_le hlayout
  have hhiLen := length_of_mapM hhi
  have hloLen := length_of_mapM hlo
  simp only [List.length_take, List.length_drop] at hhiLen hloLen
  omega

def ipv6IntFromString (ipStr : String) : Option (Fin (2 ^ 128)) :=
  match h : hextets ipStr with
  | none => none
  | some (hi, partsSkipped, lo) =>
      some ⟨joinHextets hi partsSkipped lo, joinHextets_lt (hextets_sum_le h)⟩

def splitScopeId (ipStr : String) : Option (String × Option String) :=
  match split '%' ipStr with
  | [addr] => some (addr, none)
  | [addr, scopeId] => if scopeId = "" then none else some (addr, some scopeId)
  | _ => none

def ipv6Address (address : String) : Option (Fin (2 ^ 128) × Option String) :=
  if address.toList.contains '/' then none
  else do
    let (addr, scopeId) ← splitScopeId address
    let ip ← ipv6IntFromString addr
    some (ip, scopeId)

/-! ## Addresses and networks -/

def ipAddress (address : String) : Option IPAddress :=
  match ipv4Address address with
  | some ip => some ⟨.v4, ip, none, ip.isLt⟩
  | none =>
      match ipv6Address address with
      | some (ip, scopeId) => some ⟨.v6, ip, scopeId, ip.isLt⟩
      | none => none

/-- `_prefix_from_prefix_string`; `int` refuses more than 4300 digits. -/
def prefixFromPrefixString (width : Nat) (prefixlenStr : String) : Option {p // p ≤ width} :=
  if !isAsciiDigits prefixlenStr then none
  else if 4300 < prefixlenStr.length then none
  else if h : digitsValue prefixlenStr ≤ width then some ⟨digitsValue prefixlenStr, h⟩
  else none

def countRighthandZeroBits (number : Nat) : Nat → Nat
  | 0 => 0
  | bits + 1 => if number % 2 = 1 then 0 else countRighthandZeroBits (number / 2) bits + 1

def prefixFromIpInt (width ipInt : Nat) : Option {p // p ≤ width} :=
  let trailingZeroes := countRighthandZeroBits ipInt width
  if ipInt >>> trailingZeroes = 2 ^ (width - trailingZeroes) - 1 then
    some ⟨width - trailingZeroes, by omega⟩
  else none

/-- `_prefix_from_ip_string`: a netmask, or else a hostmask. -/
def prefixFromIpString (ipStr : String) : Option {p // p ≤ 32} := do
  let ipInt ← ipv4IntFromString ipStr
  prefixFromIpInt 32 ipInt <|> prefixFromIpInt 32 (ipInt.val ^^^ (2 ^ 32 - 1))

/-- `_make_netmask` on the text behind the slash. -/
def makeNetmask : (family : Family) → String → Option {p // p ≤ family.width}
  | .v4, arg => prefixFromPrefixString 32 arg <|> prefixFromIpString arg
  | .v6, arg => prefixFromPrefixString 128 arg

/-- The network of prefix length `p` around an address; host bits are masked off. -/
def IPNetwork.around (family : Family) (ip : Fin (2 ^ family.width))
    (p : {p // p ≤ family.width}) : IPNetwork where
  family := family
  networkAddress := ip &&& netmask family.width p
  prefixlen := p
  prefixlen_le := p.property
  networkAddress_lt := Nat.and_le_left.trans_lt ip.isLt
  aligned := land_netmask_idem _ _ _

/-- The IPv4 network of the dotted quad `a.b.c.d` and prefix length `p`. -/
def IPNetwork.ofQuad (a b c d : Fin 256) (p : Fin 33) : IPNetwork :=
  .around .v4 ⟨a * 2 ^ 24 + b * 2 ^ 16 + c * 2 ^ 8 + d, by
    change _ < 2 ^ 32
    omega⟩ ⟨p, by
    change _ ≤ 32
    omega⟩

def familyNetwork (family : Family) (parse : String → Option (Fin (2 ^ family.width)))
    (address : String) : Option IPNetwork :=
  match split '/' address with
  | [addr] => (parse addr).map fun ip => .around family ip ⟨family.width, Nat.le_refl _⟩
  | [addr, mask] => do
      let ip ← parse addr
      let p ← makeNetmask family mask
      some (.around family ip p)
  | _ => none

def ipNetwork (address : String) : Option IPNetwork :=
  familyNetwork .v4 ipv4Address address <|>
    familyNetwork .v6 (fun addr => (ipv6Address addr).map Prod.fst) address

def IPNetwork.contains (network : IPNetwork) (address : IPAddress) : Bool :=
  address.family = network.family &&
    (address.ip &&& netmask network.family.width network.prefixlen) == network.networkAddress

theorem IPNetwork.contains_iff (network : IPNetwork) (address : IPAddress) :
    network.contains address = true ↔
      address.family = network.family ∧
        address.ip / 2 ^ (network.family.width - network.prefixlen) =
          network.networkAddress / 2 ^ (network.family.width - network.prefixlen) := by
  simp only [IPNetwork.contains, Bool.and_eq_true, decide_eq_true_eq, beq_iff_eq]
  refine and_congr_right fun hfamily => ?_
  have hlt : address.ip < 2 ^ network.family.width := hfamily ▸ address.ip_lt
  rw [← network.aligned]
  rw [land_netmask_eq_iff network.prefixlen_le hlt network.networkAddress_lt, network.aligned]

def IPNetwork.first (network : IPNetwork) : IPAddress :=
  ⟨network.family, network.networkAddress, none, network.networkAddress_lt⟩

theorem IPNetwork.dvd_networkAddress (network : IPNetwork) :
    2 ^ (network.family.width - network.prefixlen) ∣ network.networkAddress := by
  rw [← network.aligned, land_netmask network.prefixlen_le network.networkAddress_lt]
  exact Nat.dvd_mul_left _ _

theorem IPNetwork.contains_first (network : IPNetwork) :
    network.contains network.first = true :=
  (network.contains_iff _).mpr ⟨rfl, rfl⟩

/-- A block of prefix length `p` has a second address that differs at bit `k`
counted from the right, for every `k` below `w - p`. -/
theorem IPNetwork.exists_contains_add (network : IPNetwork) {k : Nat}
    (hk : k < network.family.width - network.prefixlen) :
    ∃ addr, network.contains addr = true ∧ addr.family = network.family ∧
      addr.ip = network.networkAddress + 2 ^ k := by
  obtain ⟨q, hq⟩ := network.dvd_networkAddress
  have hlt := network.networkAddress_lt
  have hpow : 2 ^ k < 2 ^ (network.family.width - network.prefixlen) :=
    Nat.pow_lt_pow_right (by decide) hk
  have hquot : (network.networkAddress + 2 ^ k) /
      2 ^ (network.family.width - network.prefixlen) = q := by
    rw [hq, Nat.mul_add_div (Nat.two_pow_pos _), Nat.div_eq_of_lt hpow, Nat.add_zero]
  have hbound : network.networkAddress + 2 ^ k < 2 ^ network.family.width := by
    have hsplit : 2 ^ network.family.width =
        2 ^ (network.family.width - network.prefixlen) * 2 ^ network.prefixlen := by
      rw [← Nat.pow_add, Nat.sub_add_cancel network.prefixlen_le]
    have hq' : q < 2 ^ network.prefixlen := by
      rw [hq, hsplit] at hlt
      exact Nat.lt_of_mul_lt_mul_left hlt
    calc network.networkAddress + 2 ^ k
        < 2 ^ (network.family.width - network.prefixlen) * (q + 1) := by
          rw [hq, Nat.mul_succ]
          omega
      _ ≤ 2 ^ (network.family.width - network.prefixlen) * 2 ^ network.prefixlen :=
          Nat.mul_le_mul_left _ hq'
      _ = 2 ^ network.family.width := hsplit.symm
  refine ⟨⟨network.family, network.networkAddress + 2 ^ k, none, hbound⟩, ?_, rfl, rfl⟩
  rw [network.contains_iff]
  refine ⟨rfl, ?_⟩
  rw [hquot, hq, Nat.mul_div_cancel_left _ (Nat.two_pow_pos _)]

/-- One network covers another exactly when its prefix is no longer and it holds
the other's network address. -/
theorem IPNetwork.subset_iff (inner outer : IPNetwork) :
    (∀ addr, inner.contains addr = true → outer.contains addr = true) ↔
      outer.prefixlen ≤ inner.prefixlen ∧ outer.contains inner.first = true := by
  constructor
  · intro hsub
    have hfirst := hsub _ inner.contains_first
    refine ⟨?_, hfirst⟩
    by_contra hlonger
    obtain ⟨hfamily, hquot⟩ := (outer.contains_iff _).mp hfirst
    change inner.family = outer.family at hfamily
    change inner.networkAddress / _ = _ at hquot
    have houter := outer.prefixlen_le
    have hk : outer.family.width - outer.prefixlen <
        inner.family.width - inner.prefixlen := by
      rw [hfamily]
      omega
    obtain ⟨addr, hin, -, hip⟩ := inner.exists_contains_add hk
    have hout := ((outer.contains_iff _).mp (hsub addr hin)).2
    rw [hip, ← hquot, Nat.add_div_right _ (Nat.two_pow_pos _)] at hout
    omega
  · rintro ⟨hle, hfirst⟩ addr hin
    obtain ⟨hfamily, hquot⟩ := (outer.contains_iff _).mp hfirst
    obtain ⟨haddr, hip⟩ := (inner.contains_iff _).mp hin
    change inner.family = outer.family at hfamily
    rw [outer.contains_iff]
    refine ⟨haddr.trans hfamily, ?_⟩
    rw [← hquot, ← hfamily]
    exact div_eq_of_prefix_le hle inner.prefixlen_le hip

/-- A block of odd index is the upper half of its parent, so no larger network
starts inside it. -/
theorem IPNetwork.covers_of_odd {inner outer : IPNetwork}
    (hodd : outer.networkAddress / 2 ^ (outer.family.width - outer.prefixlen) % 2 = 1)
    (hfirst : outer.contains inner.first = true) :
    ∀ addr, inner.contains addr = true → outer.contains addr = true := by
  refine (subset_iff inner outer).mpr ⟨?_, hfirst⟩
  by_contra hshorter
  obtain ⟨hfamily, hquot⟩ := (outer.contains_iff _).mp hfirst
  change inner.family = outer.family at hfamily
  change inner.networkAddress / _ = _ at hquot
  have houter := outer.prefixlen_le
  obtain ⟨q, hq⟩ := inner.dvd_networkAddress
  obtain ⟨m, hm⟩ : ∃ m, inner.family.width - inner.prefixlen =
      outer.family.width - outer.prefixlen + (m + 1) :=
    ⟨outer.prefixlen - inner.prefixlen - 1, by rw [hfamily]; omega⟩
  rw [← hquot, hq, hm, Nat.pow_add, Nat.mul_assoc,
    Nat.mul_div_cancel_left _ (Nat.two_pow_pos _), Nat.pow_succ] at hodd
  have heven : 2 ^ m * 2 * q = 2 * (2 ^ m * q) := by
    rw [Nat.mul_right_comm, Nat.mul_comm]
  omega

example : (ipAddress "203.0.113.50").map (·.ip) = some 3405803826 := by decide

example : (ipAddress "::ffff:10.0.0.1").map (·.ip) = some 281470849515521 := by decide

example : ipAddress "203.0.113.50:8080" = none := by decide

example : (ipNetwork "10.1.2.3/255.0.0.0").map (fun n => (n.networkAddress, n.prefixlen)) =
    some (10 * 2 ^ 24, 8) := by decide

end BackendProdReady.Lib.IpAddress
