import Ferry.Base.Text
import Ferry.Base.Sha256

/-!
# UTF-8

`str.encode("utf-8")` and `bytes.decode("utf-8")`.  A surrogate is a code point that no character has, so
a text that holds one is not encoded.  With `errors="replace"` decoding is total: every longest
beginning of a sequence that is not completed becomes one replacement character.
-/

namespace Ferry

namespace Text

def toChar? (c : CodePoint) : Option Char :=
  if h : c.val.isValidChar then some (Char.ofNatAux c.val h) else none

theorem toNat_lt (c : Char) : c.toNat < 0x110000 := by
  rcases c.valid with hlow | ⟨-, hhigh⟩
  · exact hlow.trans (by decide)
  · exact hhigh

def ofChar (c : Char) : CodePoint := ⟨c.toNat, toNat_lt c⟩

theorem ofChar_of_toChar? {c : CodePoint} {char : Char} (h : toChar? c = some char) : ofChar char = c := by
  unfold toChar? at h
  by_cases hvalid : c.val.isValidChar
  · rw [dif_pos hvalid] at h
    obtain rfl := Option.some.inj h
    exact Fin.ext rfl
  · rw [dif_neg hvalid] at h
    cases h

def utf8Encode (t : Text) : Option Bytes :=
  (t.mapM toChar?).map (List.flatMap String.utf8EncodeChar)

def utf8Decode (bytes : Bytes) : Option Text :=
  (ByteArray.mk bytes.toArray).utf8Decode?.map fun chars ↦ chars.toList.map ofChar

theorem map_ofChar_of_mapM {t : Text} {chars : List Char} (h : t.mapM toChar? = some chars) :
    chars.map ofChar = t := by
  induction t generalizing chars with
  | nil =>
    obtain rfl := Option.some.inj h
    rfl
  | cons c t ih =>
    simp only [List.mapM_cons, Option.bind_eq_bind, Option.bind_eq_some_iff] at h
    obtain ⟨char, hchar, rest, hrest, hchars⟩ := h
    obtain rfl := Option.some.inj hchars
    rw [List.map_cons, ofChar_of_toChar? hchar, ih hrest]

/-- Decoding undoes encoding. -/
theorem utf8Decode_of_utf8Encode {t : Text} {bytes : Bytes} (h : utf8Encode t = some bytes) :
    utf8Decode bytes = some t := by
  obtain ⟨chars, hchars, rfl⟩ := Option.map_eq_some_iff.mp h
  have hencoded : ByteArray.mk (chars.flatMap String.utf8EncodeChar).toArray = chars.utf8Encode :=
    ByteArray.ext (List.data_toByteArray).symm
  rw [utf8Decode, hencoded, List.utf8Decode?_utf8Encode, Option.map_some, map_ofChar_of_mapM hchars]

/-! ## Decoding with replacement -/

def replacementCharacter : CodePoint := 0xFFFD

/-- A sequence that a first byte begins: the bounds of the bytes that are to follow, and the value so
far. -/
structure Utf8Sequence where
  following : List (ℕ × ℕ)
  value : ℕ

/-- The sequence that a byte begins. -/
def utf8Lead (byte : ℕ) : Option Utf8Sequence :=
  let tail := (0x80, 0xBF)
  if byte < 0x80 then some ⟨[], byte⟩
  else if byte < 0xC2 then none
  else if byte < 0xE0 then some ⟨[tail], byte - 0xC0⟩
  else if byte < 0xF0 then
    some ⟨[(if byte = 0xE0 then 0xA0 else 0x80, if byte = 0xED then 0x9F else 0xBF), tail], byte - 0xE0⟩
  else if byte < 0xF5 then
    some ⟨[(if byte = 0xF0 then 0x90 else 0x80, if byte = 0xF4 then 0x8F else 0xBF), tail, tail],
      byte - 0xF0⟩
  else none

/-- The text of a complete sequence, and the sequence that is still open. -/
def utf8Settle : Option Utf8Sequence → Text × Option Utf8Sequence
  | none => ([replacementCharacter], none)
  | some ⟨[], value⟩ => ([Fin.ofNat _ value], none)
  | some sequence => ([], some sequence)

/-- Read one byte while a sequence is open or none is. -/
def utf8Next (pending : Option Utf8Sequence) (byte : ℕ) : Text × Option Utf8Sequence :=
  match pending with
  | some ⟨(low, high) :: following, value⟩ =>
    if low ≤ byte ∧ byte ≤ high then utf8Settle (some ⟨following, value * 64 + (byte - 0x80)⟩)
    else
      let (text, next) := utf8Settle (utf8Lead byte)
      (replacementCharacter :: text, next)
  | _ => utf8Settle (utf8Lead byte)

def utf8DecodeReplaceFrom (pending : Option Utf8Sequence) : Bytes → Text
  | [] => if pending.isSome then [replacementCharacter] else []
  | byte :: bytes =>
    let (text, next) := utf8Next pending byte.toNat
    text ++ utf8DecodeReplaceFrom next bytes

/-- `bytes.decode("utf-8", errors="replace")`. -/
def utf8DecodeReplace (bytes : Bytes) : Text := utf8DecodeReplaceFrom none bytes

end Text

end Ferry
