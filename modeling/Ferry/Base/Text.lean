import Mathlib.Data.List.Basic
import Mathlib.Data.List.Infix
import Mathlib.Data.List.TakeWhile
import Mathlib.Tactic.Common
import Mathlib.Tactic.Ring

/-!
# Python text

A Python `str` is a sequence of code points, lone surrogates included, so a text is a list of code
points rather than a Lean `String`.  This file gives the string operations of Python that the
model needs, with Python's behaviour on every code point: removal of a substring, stripping,
truncation of the UTF-8 encoding, integer literals in any base and POSIX path normalisation.
-/

namespace Ferry

abbrev CodePoint := Fin 0x110000

instance codePoint_neZero : @NeZero ℕ Zero.ofOfNat0 0x110000 := ⟨by decide⟩

abbrev Text := List CodePoint

instance codePoint_lawfulBEq : LawfulBEq CodePoint := inferInstance
instance text_lawfulBEq : LawfulBEq Text := inferInstance

namespace Text

/-- The code points of a literal. -/
def lit (s : String) : Text :=
  s.toList.map fun c ↦ ⟨c.toNat, by
    rcases c.valid with h | ⟨_, h⟩
    · exact Nat.lt_trans h (by decide)
    · exact h⟩

def slash : CodePoint := 0x2F
def backslash : CodePoint := 0x5C
def dot : CodePoint := 0x2E
def underscore : CodePoint := 0x5F

/-- The texts `.` and `..`. -/
def dotText : Text := [dot]
def dotdot : Text := [dot, dot]

/-! ## Substrings and stripping -/

/-- Scan that drops every occurrence of `sub`; the counter skips the rest of a match. -/
def removeFrom (sub : Text) : ℕ → Text → Text
  | _, [] => []
  | skip + 1, _ :: rest => removeFrom sub skip rest
  | 0, c :: rest =>
    if sub.isPrefixOf (c :: rest) then removeFrom sub (sub.length - 1) rest
    else c :: removeFrom sub 0 rest

/-- `str.replace(sub, "")` for a nonempty `sub`. -/
def remove (sub t : Text) : Text := removeFrom sub 0 t

/-- `str.lstrip(chars)`. -/
def lstrip (chars t : Text) : Text := t.dropWhile (· ∈ chars)

/-- `str.strip(chars)`. -/
def strip (chars t : Text) : Text := (lstrip chars (lstrip chars t).reverse).reverse

/-- `sub in t`. -/
def hasInfix (sub t : Text) : Bool := t.tails.any (sub.isPrefixOf ·)

/-- The part after the last slash, as `os.path.basename` returns it. -/
def basename (t : Text) : Text := (t.reverse.takeWhile (· ≠ slash)).reverse

theorem mem_removeFrom {sub : Text} {c : CodePoint} (hne : sub ≠ []) (hsub : c ∉ sub)
    (skip : ℕ) (t : Text) (hmem : c ∈ t.drop skip) : c ∈ removeFrom sub skip t := by
  induction t generalizing skip with
  | nil => simp at hmem
  | cons d rest ih =>
    cases skip with
    | succ skip => exact ih skip (by simpa using hmem)
    | zero =>
      rw [List.drop_zero] at hmem
      simp only [removeFrom]
      split
      · next hprefix =>
        obtain ⟨tail, htail⟩ := List.isPrefixOf_iff_prefix.mp hprefix
        have hc : c ∈ tail := by
          rw [← htail] at hmem
          exact (List.mem_append.mp hmem).resolve_left hsub
        have hdrop : rest.drop (sub.length - 1) = tail := by
          have hpos : sub.length = (sub.length - 1) + 1 :=
            (Nat.succ_pred_eq_of_pos (List.length_pos_of_ne_nil hne)).symm
          have h := congrArg (List.drop sub.length) htail
          rw [List.drop_left, hpos, List.drop_succ_cons] at h
          exact h.symm
        exact ih _ (hdrop ▸ hc)
      · rcases List.mem_cons.mp hmem with rfl | h
        · exact List.mem_cons_self
        · exact List.mem_cons_of_mem _ (ih 0 h)

/-- Removing a substring never removes a code point that the substring lacks. -/
theorem mem_remove {sub t : Text} {c : CodePoint} (hne : sub ≠ []) (hsub : c ∉ sub) (h : c ∈ t) :
    c ∈ remove sub t :=
  mem_removeFrom hne hsub 0 t h

theorem mem_lstrip {chars t : Text} {c : CodePoint} (hc : c ∉ chars) (h : c ∈ t) :
    c ∈ lstrip chars t := by
  unfold lstrip
  induction t with
  | nil => exact h
  | cons d rest ih =>
    rw [List.dropWhile_cons]
    split
    · next hd =>
      rcases List.mem_cons.mp h with rfl | h
      · exact absurd (by simpa using hd) hc
      · exact ih h
    · exact h

theorem mem_strip {chars t : Text} {c : CodePoint} (hc : c ∉ chars) (h : c ∈ t) :
    c ∈ strip chars t := by
  simp only [strip, List.mem_reverse]
  exact mem_lstrip hc (by simpa using mem_lstrip hc h)

theorem slash_notMem_basename (t : Text) : slash ∉ basename t := by
  intro h
  have hne := List.mem_takeWhile_imp (List.mem_reverse.mp h)
  simp at hne

/-! ## Encoding -/

def isSurrogate (c : CodePoint) : Bool := 0xD800 ≤ c.val && c.val ≤ 0xDFFF

/-- Number of bytes of one code point in UTF-8. -/
def utf8Size (c : CodePoint) : ℕ :=
  if c.val < 0x80 then 1 else if c.val < 0x800 then 2 else if c.val < 0x10000 then 3 else 4

/-- `t.encode("utf-8")[:limit].decode("utf-8", errors="ignore")`: the longest prefix whose encoding
fits, since a code point cut in the middle is ignored by the decoder. -/
def utf8Truncate : ℕ → Text → Text
  | _, [] => []
  | limit, c :: rest =>
    if utf8Size c ≤ limit then c :: utf8Truncate (limit - utf8Size c) rest else []

theorem prefix_utf8Truncate (limit : ℕ) (t : Text) : utf8Truncate limit t <+: t := by
  induction t generalizing limit with
  | nil => exact List.prefix_rfl
  | cons c rest ih =>
    rw [utf8Truncate]
    split
    · exact (List.prefix_cons_inj c).mpr (ih _)
    · exact List.nil_prefix

theorem utf8Size_le (c : CodePoint) : utf8Size c ≤ 4 := by
  unfold utf8Size
  split_ifs <;> omega

/-- The number of bytes of a text in UTF-8. -/
def utf8Bytes (t : Text) : ℕ := (t.map utf8Size).sum

@[simp]
theorem utf8Bytes_cons (c : CodePoint) (t : Text) : utf8Bytes (c :: t) = utf8Size c + utf8Bytes t := by
  simp [utf8Bytes]

theorem utf8Bytes_append (t u : Text) : utf8Bytes (t ++ u) = utf8Bytes t + utf8Bytes u := by
  simp [utf8Bytes]

theorem utf8Bytes_utf8Truncate_le (limit : ℕ) (t : Text) : utf8Bytes (utf8Truncate limit t) ≤ limit := by
  induction t generalizing limit with
  | nil => exact Nat.zero_le _
  | cons c rest ih =>
    rw [utf8Truncate]
    split
    · next hfits =>
      have hrest := ih (limit - utf8Size c)
      rw [utf8Bytes_cons]
      omega
    · exact Nat.zero_le _

theorem utf8Truncate_eq_self {limit : ℕ} {t : Text} (h : utf8Bytes t ≤ limit) :
    utf8Truncate limit t = t := by
  induction t generalizing limit with
  | nil => rfl
  | cons c rest ih =>
    rw [utf8Bytes_cons] at h
    rw [utf8Truncate, if_pos (by omega), ih (by omega)]

/-- A text that is cut loses less than the four bytes that a code point takes at most. -/
theorem lt_utf8Bytes_utf8Truncate {limit : ℕ} {t : Text} (h : limit < utf8Bytes t) :
    limit < utf8Bytes (utf8Truncate limit t) + 4 := by
  induction t generalizing limit with
  | nil => exact absurd h (Nat.not_lt_zero _)
  | cons c rest ih =>
    have hsize := utf8Size_le c
    rw [utf8Bytes_cons] at h
    rw [utf8Truncate]
    split
    · next hfits =>
      have hrest := ih (show limit - utf8Size c < utf8Bytes rest by omega)
      rw [utf8Bytes_cons]
      omega
    · next hfits => exact lt_of_lt_of_le (not_le.mp hfits) (by omega)

/-- `str.upper` on ASCII letters; other code points are kept. -/
def asciiUpper (t : Text) : Text :=
  t.map fun c ↦ if 0x61 ≤ c.val ∧ c.val ≤ 0x7A then ⟨c.val - 0x20, by omega⟩ else c

/-- `str.lower` on ASCII letters; other code points are kept. -/
def asciiLower (t : Text) : Text :=
  t.map fun c ↦ if h : 0x41 ≤ c.val ∧ c.val ≤ 0x5A then ⟨c.val + 0x20, by omega⟩ else c

theorem asciiLower_asciiLower (t : Text) : asciiLower (asciiLower t) = asciiLower t := by
  unfold asciiLower
  rw [List.map_map]
  apply List.map_congr_left
  intro c _
  by_cases h : 0x41 ≤ c.val ∧ c.val ≤ 0x5A
  · simp [h]
    omega
  · simp [h]

/-- A code point of a text that is split at another one is in one of the parts. -/
theorem mem_of_mem_intercalate {c separator : CodePoint} {parts : List Text}
    (h : c ∈ [separator].intercalate parts) (hne : c ≠ separator) : ∃ part ∈ parts, c ∈ part := by
  induction parts with
  | nil => simp [List.intercalate] at h
  | cons part rest ih =>
    cases rest with
    | nil => exact ⟨part, List.mem_cons_self, by simpa [List.intercalate] using h⟩
    | cons next rest =>
      have hcases : c ∈ part ∨ c = separator ∨ c ∈ [separator].intercalate (next :: rest) := by
        simpa [List.intercalate] using h
      rcases hcases with hpart | hsep | hrest
      · exact ⟨part, List.mem_cons_self, hpart⟩
      · exact absurd hsep hne
      · obtain ⟨found, hfound, hmem⟩ := ih hrest
        exact ⟨found, List.mem_cons_of_mem _ hfound, hmem⟩

/-- Whether a text can be passed to the file system: NUL cannot, and of the lone surrogates only
those that stand for undecodable bytes can. -/
def isFsEncodable (t : Text) : Bool :=
  t.all fun c ↦ c.val ≠ 0 ∧ (isSurrogate c → 0xDC80 ≤ c.val ∧ c.val ≤ 0xDCFF)

/-! ## Integer literals -/

/-- The code points that are the digit zero of some decimal digit block of Unicode. -/
def zeroDigits : List ℕ :=
  [0x30, 0x660, 0x6F0, 0x7C0, 0x966, 0x9E6, 0xA66, 0xAE6, 0xB66, 0xBE6, 0xC66, 0xCE6, 0xD66,
   0xDE6, 0xE50, 0xED0, 0xF20, 0x1040, 0x1090, 0x17E0, 0x1810, 0x1946, 0x19D0, 0x1A80, 0x1A90,
   0x1B50, 0x1BB0, 0x1C40, 0x1C50, 0xA620, 0xA8D0, 0xA900, 0xA9D0, 0xA9F0, 0xAA50, 0xABF0,
   0xFF10, 0x104A0, 0x10D30, 0x11066, 0x110F0, 0x11136, 0x111D0, 0x112F0, 0x11450, 0x114D0,
   0x11650, 0x116C0, 0x11730, 0x118E0, 0x11950, 0x11C50, 0x11D50, 0x11DA0, 0x16A60, 0x16AC0,
   0x16B50, 0x1D7CE, 0x1D7D8, 0x1D7E2, 0x1D7EC, 0x1D7F6, 0x1E140, 0x1E2F0, 0x1E950, 0x1FBF0]

/-- The code points that `int` skips around a literal. -/
def intSpaces : List ℕ :=
  [0x9, 0xA, 0xB, 0xC, 0xD, 0x20, 0x85, 0xA0, 0x1680, 0x2000, 0x2001, 0x2002, 0x2003, 0x2004,
   0x2005, 0x2006, 0x2007, 0x2008, 0x2009, 0x200A, 0x2028, 0x2029, 0x202F, 0x205F, 0x3000]

def isIntSpace (c : CodePoint) : Bool := intSpaces.contains c.val

/-- The value of a digit: a decimal digit of any script, or an ASCII letter. -/
def digitValue (c : CodePoint) : Option ℕ :=
  match zeroDigits.find? fun z ↦ z ≤ c.val ∧ c.val < z + 10 with
  | some z => some (c.val - z)
  | none =>
    if 0x61 ≤ c.val ∧ c.val ≤ 0x7A then some (c.val - 0x57)
    else if 0x41 ≤ c.val ∧ c.val ≤ 0x5A then some (c.val - 0x37)
    else none

def isDigit (base : ℕ) (c : CodePoint) : Bool := (digitValue c).any (· < base)

/-- The sign of a literal and what follows it. -/
def splitSign : Text → Bool × Text
  | c :: rest => if c = 0x2D then (true, rest) else if c = 0x2B then (false, rest) else (false, c :: rest)
  | [] => (false, [])

/-- Base 16 allows a `0x` prefix, with one underscore after it. -/
def skipHexPrefix (base : ℕ) (t : Text) : Text :=
  match t with
  | zero :: x :: rest =>
    if base = 16 ∧ zero = 0x30 ∧ (x = 0x78 ∨ x = 0x58) then
      match rest with
      | c :: rest' => if c = underscore then rest' else rest
      | [] => []
    else t
  | _ => t

/-- The digits of a literal, where single underscores may stand between digits.  Decimal literals
have at most 4300 digits. -/
def digitsOf (base : ℕ) (body : Text) : Option (List ℕ) :=
  let groups := body.splitOn underscore
  if groups.any (·.isEmpty) then none
  else if base = 10 ∧ 4300 < groups.flatten.length then none
  else groups.flatten.mapM digitValue

/-- `int(t, base)`, where `none` stands for the `ValueError`. -/
def parseInt (base : ℕ) (t : Text) : Option ℤ :=
  let (negative, unsigned) := splitSign (t.dropWhile isIntSpace)
  let literal := skipHexPrefix base unsigned
  let inBody := fun c ↦ isDigit base c || c == underscore
  if (literal.dropWhile inBody).all isIntSpace then
    (digitsOf base (literal.takeWhile inBody)).map fun ds ↦
      let magnitude : ℤ := (ds.foldl (fun acc d ↦ acc * base + d) 0 : ℕ)
      if negative then -magnitude else magnitude
  else none

/-- The code points that can occur in a literal. -/
def isIntChar (base : ℕ) (c : CodePoint) : Bool :=
  isIntSpace c || isDigit base c || decide (c ∈ lit "_+-xX0")

theorem isIntChar_of_mem_lit {base : ℕ} {c : CodePoint} (h : c ∈ lit "_+-xX0") :
    isIntChar base c := by
  simp [isIntChar, h]

theorem isIntChar_of_mem_skipHexPrefix {base : ℕ} {t : Text}
    (h : ∀ c ∈ skipHexPrefix base t, isIntChar base c) : ∀ c ∈ t, isIntChar base c := by
  unfold skipHexPrefix at h
  split at h
  · next zero x rest =>
    split at h
    · next hprefix =>
      obtain ⟨-, rfl, hx⟩ := hprefix
      have hzero : isIntChar base 0x30 := isIntChar_of_mem_lit (by decide)
      have hx' : isIntChar base x := by
        rcases hx with rfl | rfl
        · exact isIntChar_of_mem_lit (by decide)
        · exact isIntChar_of_mem_lit (by decide)
      have hrest : ∀ c ∈ rest, isIntChar base c := by
        split at h
        · next d rest' =>
          split at h
          · next hd =>
            intro c hc
            rcases List.mem_cons.mp hc with rfl | hc
            · subst hd; exact isIntChar_of_mem_lit (by decide)
            · exact h c hc
          · exact h
        · simp
      simpa using ⟨hzero, hx', hrest⟩
    · exact h
  · exact h

theorem isIntChar_of_mem_splitSign {base : ℕ} {t : Text}
    (h : ∀ c ∈ (splitSign t).2, isIntChar base c) : ∀ c ∈ t, isIntChar base c := by
  cases t with
  | nil => simp
  | cons d rest =>
    intro c hc
    simp only [splitSign] at h
    split at h
    · next hd =>
      rcases List.mem_cons.mp hc with rfl | hc
      · subst hd; exact isIntChar_of_mem_lit (by decide)
      · exact h c hc
    · split at h
      · next hd =>
        rcases List.mem_cons.mp hc with rfl | hc
        · subst hd; exact isIntChar_of_mem_lit (by decide)
        · exact h c hc
      · exact h c hc

/-- A text that `int` accepts consists of spaces, digits, a sign, underscores and a prefix. -/
theorem isIntChar_of_parseInt {base : ℕ} {t : Text} {n : ℤ} (h : parseInt base t = some n) :
    ∀ c ∈ t, isIntChar base c := by
  simp only [parseInt] at h
  split at h
  · next hspaces =>
    set literal := skipHexPrefix base (splitSign (t.dropWhile isIntSpace)).2
    have hliteral : ∀ c ∈ literal, isIntChar base c := by
      intro c hc
      rw [← List.takeWhile_append_dropWhile (p := fun c ↦ isDigit base c || c == underscore)
        (l := literal)] at hc
      rcases List.mem_append.mp hc with hc | hc
      · have hbody := List.mem_takeWhile_imp hc
        rcases Bool.or_eq_true_iff.mp hbody with hdigit | hunder
        · simp [isIntChar, hdigit]
        · rw [beq_iff_eq] at hunder
          subst hunder
          exact isIntChar_of_mem_lit (by decide)
      · simp [isIntChar, List.all_eq_true.mp hspaces c hc]
    have hunsigned := isIntChar_of_mem_splitSign (isIntChar_of_mem_skipHexPrefix hliteral)
    intro c hc
    rw [← List.takeWhile_append_dropWhile (p := isIntSpace) (l := t)] at hc
    rcases List.mem_append.mp hc with hc | hc
    · simp [isIntChar, List.mem_takeWhile_imp hc]
    · exact hunsigned c hc
  · simp at h

end Text

end Ferry
