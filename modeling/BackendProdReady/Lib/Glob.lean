import Mathlib.Data.List.Basic
import Mathlib.Data.List.Infix
import Mathlib.Tactic.Common

/-!
# Glob patterns

A pattern is read into tokens, and the tokens decide which texts they accept.
Two dialects are read here: that of Redis `MATCH`, which works on bytes, negates a
class with `^` and escapes with a backslash, and that of Python's `fnmatch`, which
works on code points, negates with `!` and has no escape.
-/

namespace BackendProdReady.Lib.Glob

/-! ## Tokens -/

inductive Token
  /-- `*`, any text. -/
  | star
  /-- One character out of a set. -/
  | one (members : Char → Bool)

/-- The token of a character that opens no class and escapes nothing. -/
def Token.plain (c : Char) : Token :=
  if c = '*' then .star
  else if c = '?' then .one fun _ => true
  else .one (· == c)

def literal (text : List Char) : List Token := text.map fun c => .one (· == c)

def accepts : List Token → List Char → Bool
  | [], text => text.isEmpty
  | .star :: tokens, text => text.tails.any (accepts tokens)
  | .one _ :: _, [] => false
  | .one members :: tokens, c :: text => members c && accepts tokens text

@[simp] theorem accepts_nil (text : List Char) : accepts [] text = true ↔ text = [] := by
  simp [accepts]

theorem accepts_one {members : Char → Bool} {tokens : List Token} {text : List Char} :
    accepts (.one members :: tokens) text = true ↔
      ∃ c rest, text = c :: rest ∧ members c = true ∧ accepts tokens rest = true := by
  cases text with
  | nil => simp [accepts]
  | cons c text => simp [accepts]

theorem accepts_star {tokens : List Token} {text : List Char} :
    accepts (.star :: tokens) text = true ↔
      ∃ skipped rest, text = skipped ++ rest ∧ accepts tokens rest = true := by
  simp only [accepts, List.any_eq_true, List.mem_tails]
  constructor
  · rintro ⟨rest, ⟨skipped, rfl⟩, hrest⟩
    exact ⟨skipped, rest, rfl, hrest⟩
  · rintro ⟨skipped, rest, rfl, hrest⟩
    exact ⟨rest, ⟨skipped, rfl⟩, hrest⟩

/-- The text of two patterns in a row is a text of the one and a text of the other. -/
theorem accepts_append {tokens more : List Token} {text : List Char} :
    accepts (tokens ++ more) text = true ↔
      ∃ left right, text = left ++ right ∧ accepts tokens left = true ∧
        accepts more right = true := by
  induction tokens generalizing text with
  | nil => simp
  | cons token tokens ih =>
      cases token with
      | star =>
          simp only [List.cons_append, accepts_star, ih]
          constructor
          · rintro ⟨skipped, _, rfl, left, right, rfl, hleft, hright⟩
            exact ⟨skipped ++ left, right, by simp, ⟨skipped, left, rfl, hleft⟩, hright⟩
          · rintro ⟨_, right, rfl, ⟨skipped, left, rfl, hleft⟩, hright⟩
            exact ⟨skipped, left ++ right, by simp, left, right, rfl, hleft, hright⟩
      | one members =>
          simp only [List.cons_append, accepts_one, ih]
          constructor
          · rintro ⟨c, _, rfl, hc, left, right, rfl, hleft, hright⟩
            exact ⟨c :: left, right, rfl, ⟨c, left, rfl, hc, hleft⟩, hright⟩
          · rintro ⟨_, right, rfl, ⟨c, left, rfl, hc, hleft⟩, hright⟩
            exact ⟨c, left ++ right, rfl, hc, left, right, rfl, hleft, hright⟩

@[simp] theorem accepts_literal {word text : List Char} :
    accepts (literal word) text = true ↔ text = word := by
  induction word generalizing text with
  | nil => simp [literal]
  | cons c word ih =>
      simp only [literal, List.map_cons] at ih ⊢
      rw [accepts_one]
      constructor
      · rintro ⟨d, rest, rfl, hd, hrest⟩
        rw [ih.mp hrest, beq_iff_eq.mp hd]
      · rintro rfl
        exact ⟨c, word, rfl, by simp, ih.mpr rfl⟩

theorem accepts_literal_append {word text : List Char} {tokens : List Token} :
    accepts (literal word ++ tokens) text = true ↔
      ∃ rest, text = word ++ rest ∧ accepts tokens rest = true := by
  rw [accepts_append]
  constructor
  · rintro ⟨left, rest, rfl, hleft, hrest⟩
    exact ⟨rest, by rw [accepts_literal.mp hleft], hrest⟩
  · rintro ⟨rest, rfl, hrest⟩
    exact ⟨word, rest, rfl, accepts_literal.mpr rfl, hrest⟩

/-! ## Classes -/

/-- A class that is still being read. -/
structure CharClass where
  negated : Bool
  members : Char → Bool
  /-- Nothing has been read but the bracket and the negation. -/
  fresh : Bool

namespace CharClass

def start (negated : Bool) : CharClass := ⟨negated, fun _ => false, true⟩

def add (cls : CharClass) (c : Char) : CharClass :=
  { cls with members := fun d => cls.members d || d == c, fresh := false }

def addRange (cls : CharClass) (low high : Char) : CharClass :=
  { cls with members := fun d => cls.members d || (low ≤ d && d ≤ high), fresh := false }

/-- The two ends in either order. -/
def addEnds (cls : CharClass) (c d : Char) : CharClass :=
  if c ≤ d then cls.addRange c d else cls.addRange d c

def token (cls : CharClass) : Token := .one fun d => cls.members d != cls.negated

end CharClass

/-! ## Redis -/

/-- The pattern as Redis reads it, inside a class or outside.  A class that is not closed
ends with the pattern, and a range may be written backwards. -/
def redisTokens : Option CharClass → List Char → List Token
  | none, [] => []
  | none, '[' :: '^' :: rest => redisTokens (some (.start true)) rest
  | none, '[' :: rest => redisTokens (some (.start false)) rest
  | none, '\\' :: c :: rest => .one (· == c) :: redisTokens none rest
  | none, c :: rest => .plain c :: redisTokens none rest
  | some cls, [] => [cls.token]
  | some cls, '\\' :: c :: rest => redisTokens (some (cls.add c)) rest
  | some cls, ']' :: rest => cls.token :: redisTokens none rest
  | some cls, low :: '-' :: high :: rest => redisTokens (some (cls.addEnds low high)) rest
  | some cls, c :: rest => redisTokens (some (cls.add c)) rest

theorem redisTokens_plain {c : Char} (hbracket : c ≠ '[') (hescape : c ≠ '\\')
    (rest : List Char) : redisTokens none (c :: rest) = .plain c :: redisTokens none rest := by
  rw [redisTokens]
  · exact fun _ h => absurd h hbracket
  · exact hbracket
  · exact fun _ _ h => absurd h hescape

/-- The class that is still open where the pattern stops. -/
def openClass : Option CharClass → List Char → Option CharClass
  | cls, [] => cls
  | none, '[' :: '^' :: rest => openClass (some (.start true)) rest
  | none, '[' :: rest => openClass (some (.start false)) rest
  | none, '\\' :: _ :: rest => openClass none rest
  | none, _ :: rest => openClass none rest
  | some cls, '\\' :: c :: rest => openClass (some (cls.add c)) rest
  | some _, ']' :: rest => openClass none rest
  | some cls, low :: '-' :: high :: rest => openClass (some (cls.addEnds low high)) rest
  | some cls, c :: rest => openClass (some (cls.add c)) rest

/-- What follows a pattern that ends outside a class and not in a backslash is read as it
would be alone. -/
theorem redisTokens_append {cls : Option CharClass} {pattern : List Char}
    (hopen : openClass cls pattern = none) (hlast : ¬ ['\\'] <:+ pattern) (more : List Char) :
    redisTokens cls (pattern ++ more) = redisTokens cls pattern ++ redisTokens none more := by
  have htail : ∀ (skipped : List Char) {rest : List Char}, ¬ ['\\'] <:+ skipped ++ rest →
      ¬ ['\\'] <:+ rest :=
    fun _ _ h hrest => h (hrest.trans (List.suffix_append _ _))
  fun_induction openClass cls pattern with
  | case1 => simp [hopen, redisTokens]
  | case2 rest ih => simpa [redisTokens] using ih hopen (htail ['[', '^'] hlast)
  | case3 rest hneg ih =>
      -- the class cannot end here, or the pattern would end inside it
      cases rest with
      | nil => simp [openClass] at hopen
      | cons d rest =>
          have hd : d ≠ '^' := fun h => hneg rest (by rw [h])
          have hih := ih hopen (htail ['['] hlast)
          simpa [redisTokens, hd] using hih
  | case4 c rest ih => simpa [redisTokens] using ih hopen (htail ['\\', c] hlast)
  | case5 c rest _ hbracket hescape ih =>
      have hc : c ≠ '\\' := by
        rintro rfl
        cases rest with
        | nil => exact hlast (List.suffix_refl _)
        | cons d rest => exact hescape d rest rfl rfl
      rw [List.cons_append, redisTokens_plain hbracket hc, redisTokens_plain hbracket hc,
        ih hopen (htail [c] hlast), List.cons_append]
  | case6 cls c rest ih => simpa [redisTokens] using ih hopen (htail ['\\', c] hlast)
  | case7 cls rest ih => simpa [redisTokens] using ih hopen (htail [']'] hlast)
  | case8 cls low high rest hesc hclose ih =>
      have hih := ih hopen (htail [low, '-', high] hlast)
      simpa [redisTokens, hesc, hclose] using hih
  | case9 cls c rest hesc hclose hrange ih =>
      -- a hyphen that ends the pattern would leave the class open
      cases rest with
      | nil => simp [openClass] at hopen
      | cons d rest =>
          have hd : d ≠ '-' := by
            rintro rfl
            cases rest with
            | nil => simp [openClass] at hopen
            | cons high rest => exact hrange high rest rfl
          have hc : c ≠ '\\' := fun h => hesc d rest h rfl
          have hadd : ∀ l, redisTokens (some cls) (c :: d :: l) =
              redisTokens (some (cls.add c)) (d :: l) := by
            intro l
            simp [redisTokens, hc, hd]
          rw [List.cons_append, List.cons_append, hadd, hadd, ← List.cons_append]
          exact ih hopen (htail [c] hlast)

/-- A pattern that ends outside a class, in a character that is not special, asks for that
character. -/
theorem redisTokens_stop {stop : Char} (hplain : stop ∉ ['*', '?', '[', '\\', ']'])
    {cls : Option CharClass} {pattern : List Char} (hopen : openClass cls pattern = none)
    (hlast : pattern.getLast? = some stop) :
    ∃ tokens, redisTokens cls pattern = tokens ++ [.one (· == stop)] := by
  simp only [List.mem_cons, List.not_mem_nil, or_false, not_or] at hplain
  obtain ⟨hstar, hany, hbracket, hescape, hclose⟩ := hplain
  -- the last character is in the rest, unless the rest is empty
  have htail : ∀ (skipped : List Char) {rest : List Char},
      (skipped ++ rest).getLast? = some stop → rest ≠ [] → rest.getLast? = some stop := by
    intro skipped rest h hne
    rwa [List.getLast?_append_of_ne_nil _ hne] at h
  have hinside : ∀ {cls : CharClass} {rest : List Char}, openClass (some cls) rest = none →
      rest ≠ [] := by
    rintro cls rest h rfl
    simp [openClass] at h
  fun_induction redisTokens cls pattern with
  | case1 => simp at hlast
  | case2 rest ih =>
      rw [openClass] at hopen
      exact ih hopen (htail ['[', '^'] hlast (hinside hopen))
  | case3 rest hneg ih =>
      rw [openClass] at hopen
      · exact ih hopen (htail ['['] hlast (hinside hopen))
      · exact hneg
  | case4 c rest ih =>
      rw [openClass] at hopen
      by_cases hrest : rest = []
      · subst hrest
        obtain rfl : c = stop := by simpa using hlast
        exact ⟨[], rfl⟩
      · obtain ⟨tokens, htokens⟩ := ih hopen (htail ['\\', c] hlast hrest)
        exact ⟨_ :: tokens, by rw [htokens, List.cons_append]⟩
  | case5 c rest hneg hbracket' hescape' ih =>
      rw [openClass] at hopen
      · by_cases hrest : rest = []
        · subst hrest
          obtain rfl : c = stop := by simpa using hlast
          refine ⟨[], ?_⟩
          simp [Token.plain, hstar, hany, redisTokens]
        · obtain ⟨tokens, htokens⟩ := ih hopen (htail [c] hlast hrest)
          exact ⟨_ :: tokens, by rw [htokens, List.cons_append]⟩
      · exact hneg
      · exact hbracket'
      · exact hescape'
  | case6 cls => simp at hlast
  | case7 cls c rest ih =>
      rw [openClass] at hopen
      exact ih hopen (htail ['\\', c] hlast (hinside hopen))
  | case8 cls rest ih =>
      rw [openClass] at hopen
      by_cases hrest : rest = []
      · subst hrest
        simp [Ne.symm hclose] at hlast
      · obtain ⟨tokens, htokens⟩ := ih hopen (htail [']'] hlast hrest)
        exact ⟨_ :: tokens, by rw [htokens, List.cons_append]⟩
  | case9 cls low high rest hesc hclose' ih =>
      rw [openClass] at hopen
      · exact ih hopen (htail [low, '-', high] hlast (hinside hopen))
      all_goals assumption
  | case10 cls c rest hesc hclose' hrange ih =>
      rw [openClass] at hopen
      · exact ih hopen (htail [c] hlast (hinside hopen))
      all_goals assumption

theorem getLast?_of_accepts {stop : Char} (hplain : stop ∉ ['*', '?', '[', '\\', ']'])
    {cls : Option CharClass} {pattern text : List Char} (hopen : openClass cls pattern = none)
    (hlast : pattern.getLast? = some stop) (h : accepts (redisTokens cls pattern) text = true) :
    text.getLast? = some stop := by
  obtain ⟨tokens, htokens⟩ := redisTokens_stop hplain hopen hlast
  rw [htokens, accepts_append] at h
  obtain ⟨left, right, rfl, -, hright⟩ := h
  obtain ⟨c, rest, rfl, hc, hrest⟩ := accepts_one.mp hright
  rw [(accepts_nil rest).mp hrest, beq_iff_eq.mp hc, List.getLast?_append]
  rfl

def isPlain (c : Char) : Bool := c ≠ '*' && c ≠ '?' && c ≠ '[' && c ≠ '\\'

/-- A pattern in which nothing is special stands for itself. -/
theorem redisTokens_literal {word : List Char} (h : word.all isPlain = true) :
    redisTokens none word = literal word := by
  induction word with
  | nil => rfl
  | cons c word ih =>
      obtain ⟨hc, hword⟩ := Bool.and_eq_true_iff.mp h
      simp only [isPlain, Bool.and_eq_true, decide_eq_true_eq] at hc
      obtain ⟨⟨⟨hstar, hany⟩, hbracket⟩, hescape⟩ := hc
      rw [redisTokens_plain hbracket hescape, ih hword, Token.plain, if_neg hstar, if_neg hany]
      rfl

/-- The bytes of the UTF-8 encoding, each read as the character of that number. -/
def utf8Bytes (s : String) : List Char :=
  s.toList.flatMap fun c => (String.utf8EncodeChar c).map fun b => Char.ofNat b.toNat

@[simp] theorem utf8Bytes_append (s t : String) :
    utf8Bytes (s ++ t) = utf8Bytes s ++ utf8Bytes t := by
  simp [utf8Bytes]

def isAscii (s : String) : Bool := s.toList.all fun c => c.toNat < 0x80

theorem utf8Bytes_of_isAscii {s : String} (h : isAscii s = true) : utf8Bytes s = s.toList := by
  have hone : ∀ c ∈ s.toList,
      ((String.utf8EncodeChar c).map fun b => Char.ofNat b.toNat) = [c] := by
    intro c hc
    have hlt : c.toNat < 0x80 := of_decide_eq_true (List.all_eq_true.mp h c hc)
    have hle : c.toNat ≤ 127 := Nat.le_of_lt_succ hlt
    have hbyte : (UInt8.ofNat c.toNat).toNat = c.toNat := by
      rw [UInt8.toNat_ofNat']
      exact Nat.mod_eq_of_lt (by omega)
    simp [String.utf8EncodeChar, hle, hbyte]
  rw [utf8Bytes, List.flatMap_congr hone]
  simp

def redisMatch (pattern key : String) : Bool :=
  accepts (redisTokens none (utf8Bytes pattern)) (utf8Bytes key)

/-! ## fnmatch -/

/-- Whether a bracket that opens here is closed; it is a plain character otherwise. -/
def closes (rest : List Char) : Bool :=
  match rest with
  | '!' :: rest => rest.tail.contains ']'
  | rest => rest.tail.contains ']'

/-- The pattern as `fnmatch` reads it.  A bracket that comes first in a class stands for
itself, and a range written backwards is empty. -/
def fnmatchTokens : Option CharClass → List Char → List Token
  | none, [] => []
  | none, '[' :: '!' :: rest =>
      if closes ('!' :: rest) then fnmatchTokens (some (.start true)) rest
      else .one (· == '[') :: .one (· == '!') :: fnmatchTokens none rest
  | none, '[' :: rest =>
      if closes rest then fnmatchTokens (some (.start false)) rest
      else .one (· == '[') :: fnmatchTokens none rest
  | none, c :: rest => .plain c :: fnmatchTokens none rest
  | some cls, [] => [cls.token]
  | some cls, low :: '-' :: high :: rest =>
      if low = ']' && !cls.fresh then cls.token :: fnmatchTokens none ('-' :: high :: rest)
      else if high = ']' then (cls.add low |>.add '-').token :: fnmatchTokens none rest
      else fnmatchTokens (some (cls.addRange low high)) rest
  | some cls, c :: rest =>
      if c = ']' && !cls.fresh then cls.token :: fnmatchTokens none rest
      else fnmatchTokens (some (cls.add c)) rest

def fnmatch (name pattern : String) : Bool :=
  accepts (fnmatchTokens none pattern.toList) name.toList

theorem fnmatchTokens_plain {c : Char} (hbracket : c ≠ '[') (rest : List Char) :
    fnmatchTokens none (c :: rest) = .plain c :: fnmatchTokens none rest := by
  rw [fnmatchTokens]
  · exact fun _ h => absurd h hbracket
  · exact hbracket

/-! ## Where the dialects agree -/

/-- No class and no escape. -/
def isSimple (pattern : String) : Bool :=
  isAscii pattern && pattern.toList.all fun c => c ≠ '[' && c ≠ '\\'

theorem redisTokens_eq_fnmatchTokens {pattern : List Char}
    (h : ∀ c ∈ pattern, c ≠ '[' ∧ c ≠ '\\') :
    redisTokens none pattern = fnmatchTokens none pattern := by
  induction pattern with
  | nil => rfl
  | cons c pattern ih =>
      obtain ⟨⟨hbracket, hescape⟩, hrest⟩ := List.forall_mem_cons.mp h
      rw [redisTokens_plain hbracket hescape, fnmatchTokens_plain hbracket, ih hrest]

theorem redisMatch_eq_fnmatch {pattern key : String} (hsimple : isSimple pattern = true)
    (hkey : isAscii key = true) : redisMatch pattern key = fnmatch key pattern := by
  obtain ⟨hascii, hplain⟩ := Bool.and_eq_true_iff.mp hsimple
  have htokens : redisTokens none pattern.toList = fnmatchTokens none pattern.toList := by
    apply redisTokens_eq_fnmatchTokens
    intro c hc
    simpa using List.all_eq_true.mp hplain c hc
  rw [redisMatch, fnmatch, utf8Bytes_of_isAscii hascii, utf8Bytes_of_isAscii hkey, htokens]

example : redisMatch "h[^e]l*" "hallo" = true := by decide
example : redisMatch "h[b-d]\\*" "hc*" = true := by decide
example : redisMatch "?" "é" = false := by decide
example : fnmatch "hallo" "h[!e]l*" = true := by decide
example : fnmatch "a]" "[]a-][]]" = true := by decide
example : fnmatch "hallo" "h[^e]l*" = false := by decide
example : fnmatch "[a" "[a" = true := by decide

end BackendProdReady.Lib.Glob
