import Ferry.Base.Sha256

/-!
# URL-safe base64

The decoder of CPython, which skips every code point outside the alphabet, and the encoder without
padding.  Decoding what the encoder wrote gives the bytes back, so every byte string is the decoded
form of some text.
-/

namespace Ferry

namespace Base64

open Text

def padChar : CodePoint := 0x3D

def alphabet : Text := lit "ABCDEFGHIJKLMNOPQRSTUVWXYZabcdefghijklmnopqrstuvwxyz0123456789-_"

/-- The alphabet entry of a six-bit value. -/
def symbol (v : ℕ) : CodePoint := alphabet.getD v padChar

/-- The six-bit value of a code point.  The standard alphabet is accepted beside the URL-safe one. -/
def sextet (c : CodePoint) : Option ℕ :=
  if c = 0x2B then some 62
  else if c = 0x2F then some 63
  else if c ∈ alphabet then some (alphabet.idxOf c)
  else none

/-- `binascii.a2b_base64`: the position in the current group of four, the bits left over and the
number of padding characters seen. -/
def a2bBase64 : ℕ → ℕ → ℕ → Text → Option Bytes
  | quadPos, _, _, [] => if quadPos = 0 then some [] else none
  | quadPos, leftchar, pads, c :: rest =>
    if c = padChar then
      if 2 ≤ quadPos then
        if 4 ≤ quadPos + (pads + 1) then some [] else a2bBase64 quadPos leftchar (pads + 1) rest
      else a2bBase64 quadPos leftchar pads rest
    else
      match sextet c with
      | none => a2bBase64 quadPos leftchar pads rest
      | some v =>
        match quadPos with
        | 0 => a2bBase64 1 v 0 rest
        | 1 => (a2bBase64 2 (v % 16) 0 rest).map (UInt8.ofNat (leftchar * 4 + v / 16) :: ·)
        | 2 => (a2bBase64 3 (v % 4) 0 rest).map (UInt8.ofNat (leftchar * 16 + v / 4) :: ·)
        | _ => (a2bBase64 0 0 0 rest).map (UInt8.ofNat (leftchar * 64 + v) :: ·)

/-- `base64.urlsafe_b64decode`, where `none` stands for the `ValueError`. -/
def urlsafeB64decode (t : Text) : Option Bytes :=
  if t.all (·.val < 0x80) then a2bBase64 0 0 0 t else none

/-- `base64.urlsafe_b64encode(data).rstrip(b"=")`. -/
def urlsafeB64encode : Bytes → Text
  | a :: b :: c :: rest =>
    symbol (a.toNat / 4) :: symbol (a.toNat % 4 * 16 + b.toNat / 16) ::
      symbol (b.toNat % 16 * 4 + c.toNat / 64) :: symbol (c.toNat % 64) :: urlsafeB64encode rest
  | [a, b] =>
    [symbol (a.toNat / 4), symbol (a.toNat % 4 * 16 + b.toNat / 16), symbol (b.toNat % 16 * 4)]
  | [a] => [symbol (a.toNat / 4), symbol (a.toNat % 4 * 16)]
  | [] => []

/-- The padding that completes the last group of four. -/
def paddingFor (t : Text) : Text := List.replicate ((4 - t.length % 4) % 4) padChar

/-! ## Round trip -/

theorem symbol_spec {v : ℕ} (hv : v < 64) :
    symbol v ≠ padChar ∧ sextet (symbol v) = some v ∧ (symbol v).val < 0x80 := by
  have h : ∀ k < 64, symbol k ≠ padChar ∧ sextet (symbol k) = some k ∧ (symbol k).val < 0x80 := by
    decide +kernel
  exact h v hv

theorem a2bBase64_symbol_zero {v : ℕ} (hv : v < 64) (leftchar pads : ℕ) (rest : Text) :
    a2bBase64 0 leftchar pads (symbol v :: rest) = a2bBase64 1 v 0 rest := by
  obtain ⟨hpad, hsextet, -⟩ := symbol_spec hv
  simp [a2bBase64, hpad, hsextet]

theorem a2bBase64_symbol_one {v : ℕ} (hv : v < 64) (leftchar pads : ℕ) (rest : Text) (b : UInt8)
    (hb : leftchar * 4 + v / 16 = b.toNat) :
    a2bBase64 1 leftchar pads (symbol v :: rest) =
      (a2bBase64 2 (v % 16) 0 rest).map (b :: ·) := by
  obtain ⟨hpad, hsextet, -⟩ := symbol_spec hv
  simp [a2bBase64, hpad, hsextet, hb]

theorem a2bBase64_symbol_two {v : ℕ} (hv : v < 64) (leftchar pads : ℕ) (rest : Text) (b : UInt8)
    (hb : leftchar * 16 + v / 4 = b.toNat) :
    a2bBase64 2 leftchar pads (symbol v :: rest) =
      (a2bBase64 3 (v % 4) 0 rest).map (b :: ·) := by
  obtain ⟨hpad, hsextet, -⟩ := symbol_spec hv
  simp [a2bBase64, hpad, hsextet, hb]

theorem a2bBase64_symbol_three {v : ℕ} (hv : v < 64) (leftchar pads : ℕ) (rest : Text) (b : UInt8)
    (hb : leftchar * 64 + v = b.toNat) :
    a2bBase64 3 leftchar pads (symbol v :: rest) = (a2bBase64 0 0 0 rest).map (b :: ·) := by
  obtain ⟨hpad, hsextet, -⟩ := symbol_spec hv
  simp [a2bBase64, hpad, hsextet, hb]

theorem a2bBase64_encode (data : Bytes) :
    a2bBase64 0 0 0 (urlsafeB64encode data ++ paddingFor (urlsafeB64encode data)) = some data := by
  induction data using urlsafeB64encode.induct with
  | case1 a b c rest ih =>
    have ha := a.toNat_lt
    have hb := b.toNat_lt
    have hc := c.toNat_lt
    have hpadding : paddingFor (urlsafeB64encode (a :: b :: c :: rest)) =
        paddingFor (urlsafeB64encode rest) := by
      simp only [paddingFor, urlsafeB64encode, List.length_cons]
      congr 1
      omega
    rw [hpadding]
    simp only [urlsafeB64encode, List.cons_append]
    rw [a2bBase64_symbol_zero (by omega), a2bBase64_symbol_one (by omega) _ _ _ a (by omega),
      a2bBase64_symbol_two (by omega) _ _ _ b (by omega),
      a2bBase64_symbol_three (by omega) _ _ _ c (by omega), ih]
    rfl
  | case2 a b =>
    have ha := a.toNat_lt
    have hb := b.toNat_lt
    have hpadding : paddingFor (urlsafeB64encode [a, b]) = [padChar] := rfl
    rw [hpadding]
    simp only [urlsafeB64encode, List.cons_append, List.nil_append]
    rw [a2bBase64_symbol_zero (by omega), a2bBase64_symbol_one (by omega) _ _ _ a (by omega),
      a2bBase64_symbol_two (by omega) _ _ _ b (by omega)]
    rfl
  | case3 a =>
    have ha := a.toNat_lt
    have hpadding : paddingFor (urlsafeB64encode [a]) = [padChar, padChar] := rfl
    rw [hpadding]
    simp only [urlsafeB64encode, List.cons_append, List.nil_append]
    rw [a2bBase64_symbol_zero (by omega), a2bBase64_symbol_one (by omega) _ _ _ a (by omega)]
    rfl
  | case4 => rfl

theorem urlsafeB64encode_ascii (data : Bytes) : ∀ c ∈ urlsafeB64encode data, c.val < 0x80 := by
  induction data using urlsafeB64encode.induct with
  | case1 a b c rest ih =>
    have ha := a.toNat_lt
    have hb := b.toNat_lt
    have hc := c.toNat_lt
    simp only [urlsafeB64encode, List.forall_mem_cons]
    exact ⟨(symbol_spec (by omega)).2.2, (symbol_spec (by omega)).2.2,
      (symbol_spec (by omega)).2.2, (symbol_spec (by omega)).2.2, ih⟩
  | case2 a b =>
    have ha := a.toNat_lt
    have hb := b.toNat_lt
    simp only [urlsafeB64encode, List.forall_mem_cons, List.not_mem_nil, false_imp_iff, implies_true]
    exact ⟨(symbol_spec (by omega)).2.2, (symbol_spec (by omega)).2.2,
      (symbol_spec (by omega)).2.2, trivial⟩
  | case3 a =>
    have ha := a.toNat_lt
    simp only [urlsafeB64encode, List.forall_mem_cons, List.not_mem_nil, false_imp_iff, implies_true]
    exact ⟨(symbol_spec (by omega)).2.2, (symbol_spec (by omega)).2.2, trivial⟩
  | case4 => simp [urlsafeB64encode]

/-- Decoding an encoded byte string, with its padding restored, gives the byte string back. -/
theorem urlsafeB64decode_encode (data : Bytes) :
    urlsafeB64decode (urlsafeB64encode data ++ paddingFor (urlsafeB64encode data)) = some data := by
  have hascii : (urlsafeB64encode data ++ paddingFor (urlsafeB64encode data)).all
      (·.val < 0x80) = true := by
    rw [List.all_append, Bool.and_eq_true]
    constructor
    · simpa using urlsafeB64encode_ascii data
    · have hpad : ∀ c ∈ paddingFor (urlsafeB64encode data), c.val < 0x80 := by
        intro c hc
        rw [List.eq_of_mem_replicate hc]
        decide
      simpa using hpad
  rw [urlsafeB64decode, if_pos hascii, a2bBase64_encode]

end Base64

end Ferry
