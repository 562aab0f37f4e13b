import Ferry.Transfer.ChunkFrame
import Mathlib.Data.Nat.ModEq
import Mathlib.Tactic.Ring

/-!
# Chunk frames survive encoding

Big-endian words and hexadecimal texts are positional numerals of a fixed width, and reading one back
gives the number modulo the power of the base.  It follows that the text of a UUID parses to its
number, and that a frame encoded for a canonical transfer id decodes to itself.
-/

namespace Ferry

open Text

/-! ## Positional numerals of a fixed width -/

/-- The digit of `n` at position `i` from the left, of `width` digits. -/
theorem foldl_digits (base width n : ℕ) :
    ((List.range width).map fun i ↦ n / base ^ (width - 1 - i) % base).foldl
      (fun acc d ↦ acc * base + d) 0 = n % base ^ width := by
  induction width generalizing n with
  | zero => simp [Nat.mod_one]
  | succ width ih =>
    have hinit : ((List.range width).map fun i ↦ n / base ^ (width + 1 - 1 - i) % base) =
        (List.range width).map fun i ↦ n / base / base ^ (width - 1 - i) % base := by
      apply List.map_congr_left
      intro i hi
      have hexp : width + 1 - 1 - i = width - 1 - i + 1 := by
        have := List.mem_range.mp hi
        omega
      rw [hexp, pow_succ', Nat.div_div_eq_div_mul]
    calc
      _ = (((List.range width).map fun i ↦ n / base ^ (width + 1 - 1 - i) % base).foldl
            (fun acc d ↦ acc * base + d) 0) * base + n / base ^ (width + 1 - 1 - width) % base := by
        rw [List.range_succ, List.map_append, List.foldl_append]
        rfl
      _ = n / base % base ^ width * base + n % base := by
        rw [hinit, ih]
        simp
      _ = n % base ^ (width + 1) := by
        rw [pow_succ', Nat.mod_mul]
        ring

theorem ofBigEndian_toBigEndian {width n : ℕ} (h : n < 256 ^ width) :
    ofBigEndian (toBigEndian width n) = n := by
  have hdigits : (toBigEndian width n).foldl (fun acc b ↦ acc * 256 + b.toNat) 0 =
      ((List.range width).map fun i ↦ n / 256 ^ (width - 1 - i) % 256).foldl
        (fun acc d ↦ acc * 256 + d) 0 := by
    rw [toBigEndian, List.foldl_map, List.foldl_map]
    simp
  rw [ofBigEndian, hdigits, foldl_digits, Nat.mod_eq_of_lt h]

@[simp] theorem length_toBigEndian (width n : ℕ) : (toBigEndian width n).length = width := by
  simp [toBigEndian]

/-! ## Hexadecimal texts -/

theorem digitValue_hexDigit (n : ℕ) : digitValue (Sha256.hexDigit n) = some (n % 16) := by
  have h : ∀ k < 16, digitValue (Sha256.hexDigit k) = some k := by decide
  have hmod : Sha256.hexDigit n = Sha256.hexDigit (n % 16) := by simp [Sha256.hexDigit]
  rw [hmod]
  exact h _ (Nat.mod_lt _ (by decide))

@[simp] theorem length_hexDigits (width n : ℕ) : (hexDigits width n).length = width := by
  simp [hexDigits]

/-- Code points that a parser treats specially and that are no hexadecimal digits. -/
def nonDigits : Text := lit "-+xX_ur\x7b\x7d"

/-- What a lower-case hexadecimal digit is and is not. -/
theorem hexDigits_plain {width n : ℕ} {c : CodePoint} (h : c ∈ hexDigits width n) :
    isIntSpace c = false ∧ isDigit 16 c = true ∧ c ∉ nonDigits := by
  obtain ⟨i, -, rfl⟩ := List.mem_map.mp h
  have hall : ∀ k < 16, isIntSpace (Sha256.hexDigit k) = false ∧ isDigit 16 (Sha256.hexDigit k) = true ∧
      Sha256.hexDigit k ∉ nonDigits := by decide
  have hmod : ∀ m, Sha256.hexDigit m = Sha256.hexDigit (m % 16) := fun m ↦ by simp [Sha256.hexDigit]
  rw [hmod]
  exact hall _ (Nat.mod_lt _ (by decide))

theorem splitOn_of_notMem {α : Type} [DecidableEq α] {a : α} {l : List α} (h : a ∉ l) :
    l.splitOn a = [l] := by
  have hmem : ∀ l' ∈ [l], a ∉ l' := by simpa using h
  simpa using List.splitOn_intercalate a hmem (List.cons_ne_nil l [])

theorem mapM_digitValue_hexDigits (width n : ℕ) :
    (hexDigits width n).mapM digitValue =
      some ((List.range width).map fun i ↦ n / 16 ^ (width - 1 - i) % 16) := by
  have hvalue : (fun i ↦ digitValue (Sha256.hexDigit (n / 16 ^ (width - 1 - i)))) =
      fun i ↦ pure (n / 16 ^ (width - 1 - i) % 16) := by
    funext i
    exact digitValue_hexDigit _
  rw [hexDigits, List.mapM_map]
  simp only [Function.comp_def, hvalue]
  exact List.mapM_pure

/-- A nonempty hexadecimal text is an integer literal of base 16, read digit by digit. -/
theorem parseInt_hexDigits {width n : ℕ} (hwidth : 2 ≤ width) (hn : n < 16 ^ width) :
    parseInt 16 (hexDigits width n) = some (n : ℤ) := by
  have hplain : ∀ c ∈ hexDigits width n, isIntSpace c = false ∧ isDigit 16 c = true ∧ c ∉ nonDigits :=
    fun c hc ↦ hexDigits_plain hc
  have hdigits : digitsOf 16 (hexDigits width n) =
      some ((List.range width).map fun i ↦ n / 16 ^ (width - 1 - i) % 16) := by
    have hunder : underscore ∉ hexDigits width n := by
      intro hmem
      exact (hplain _ hmem).2.2 (by decide)
    have hne : hexDigits width n ≠ [] := by
      intro hnil
      have hlength := length_hexDigits width n
      rw [hnil] at hlength
      simp at hlength
      omega
    unfold digitsOf
    rw [splitOn_of_notMem hunder]
    simpa [hne] using mapM_digitValue_hexDigits width n
  have hbody : ∀ c ∈ hexDigits width n, (isDigit 16 c || c == underscore) = true := by
    intro c hc
    simp [(hplain c hc).2.1]
  have hspace : (hexDigits width n).dropWhile isIntSpace = hexDigits width n := by
    rw [List.dropWhile_eq_self_iff]
    intro hpos
    simp [(hplain _ (List.getElem_mem hpos)).1]
  have hsign : splitSign (hexDigits width n) = (false, hexDigits width n) := by
    cases htext : hexDigits width n with
    | nil => rfl
    | cons c rest =>
      have hc := (hplain c (htext ▸ List.mem_cons_self)).2.2
      have hminus : c ≠ 0x2D := fun h ↦ hc (h ▸ by decide)
      have hplus : c ≠ 0x2B := fun h ↦ hc (h ▸ by decide)
      simp [splitSign, hminus, hplus]
  have hskip : skipHexPrefix 16 (hexDigits width n) = hexDigits width n := by
    unfold skipHexPrefix
    split
    · next zero x rest htext =>
      have hx := (hplain x (htext ▸ by simp)).2.2
      have hlower : x ≠ 0x78 := fun h ↦ hx (h ▸ by decide)
      have hupper : x ≠ 0x58 := fun h ↦ hx (h ▸ by decide)
      simp [hlower, hupper, htext]
    · rfl
  have hall : (hexDigits width n).dropWhile (fun c ↦ isDigit 16 c || c == underscore) = [] :=
    List.dropWhile_eq_nil_iff.mpr hbody
  have htake : (hexDigits width n).takeWhile (fun c ↦ isDigit 16 c || c == underscore) =
      hexDigits width n := List.takeWhile_eq_self_iff.mpr hbody
  unfold parseInt
  rw [hspace, hsign]
  dsimp only
  rw [hskip, hall, htake, hdigits]
  simp [foldl_digits, Nat.mod_eq_of_lt hn]

/-! ## The text of a UUID -/

theorem remove_of_notMem {c : CodePoint} {sub t : Text} (h : c ∉ t) : remove (c :: sub) t = t := by
  unfold remove
  induction t with
  | nil => rfl
  | cons d rest ih =>
    have hne : c ≠ d := fun heq ↦ h (heq ▸ List.mem_cons_self)
    have hnot : (c :: sub).isPrefixOf (d :: rest) = false := by simp [List.isPrefixOf, hne]
    rw [removeFrom, hnot, if_neg (by simp), ih fun hc ↦ h (List.mem_cons_of_mem d hc)]

theorem remove_singleton (c : CodePoint) (t : Text) : remove [c] t = t.filter (· ≠ c) := by
  unfold remove
  induction t with
  | nil => rfl
  | cons d rest ih =>
    by_cases hcd : d = c
    · rw [removeFrom, if_pos (by simp [List.isPrefixOf, hcd]), List.filter_cons_of_neg (by simp [hcd])]
      exact ih
    · rw [removeFrom, if_neg (by simp [List.isPrefixOf, Ne.symm hcd]),
        List.filter_cons_of_pos (by simp [hcd]), ih]

theorem lstrip_of_notMem {chars t : Text} (h : ∀ c ∈ t, c ∉ chars) : lstrip chars t = t := by
  unfold lstrip
  rw [List.dropWhile_eq_self_iff]
  intro hpos
  simpa using h _ (List.getElem_mem hpos)

theorem strip_of_notMem {chars t : Text} (h : ∀ c ∈ t, c ∉ chars) : strip chars t = t := by
  have hreverse : ∀ c ∈ t.reverse, c ∉ chars := fun c hc ↦ h c (List.mem_reverse.mp hc)
  rw [strip, lstrip_of_notMem h, lstrip_of_notMem hreverse, List.reverse_reverse]

theorem mem_uuidText {n : ℕ} {c : CodePoint} (h : c ∈ uuidText n) :
    c ∈ hexDigits 32 n ∨ c ∈ lit "-" := by
  have htake : ∀ k m, c ∈ ((hexDigits 32 n).drop k).take m → c ∈ hexDigits 32 n :=
    fun k m hc ↦ List.mem_of_mem_drop (List.mem_of_mem_take hc)
  simp only [uuidText, List.mem_append] at h
  rcases h with (((((((h | h) | h) | h) | h) | h) | h) | h) | h
  · exact .inl (List.mem_of_mem_take h)
  · exact .inr h
  · exact .inl (htake _ _ h)
  · exact .inr h
  · exact .inl (htake _ _ h)
  · exact .inr h
  · exact .inl (htake _ _ h)
  · exact .inr h
  · exact .inl (List.mem_of_mem_drop h)

theorem remove_dash_uuidText (n : ℕ) : remove (lit "-") (uuidText n) = hexDigits 32 n := by
  have hkeep : ∀ l : Text, (∀ c ∈ l, c ∈ hexDigits 32 n) → l.filter (· ≠ 0x2D) = l := by
    intro l hl
    rw [List.filter_eq_self]
    intro c hc
    have hdash : c ≠ 0x2D := fun heq ↦ (hexDigits_plain (hl c hc)).2.2 (heq ▸ by decide)
    simpa using hdash
  have htake : ∀ k m, (((hexDigits 32 n).drop k).take m).filter (· ≠ 0x2D) =
      ((hexDigits 32 n).drop k).take m :=
    fun k m ↦ hkeep _ fun c hc ↦ List.mem_of_mem_drop (List.mem_of_mem_take hc)
  have hfirst : ((hexDigits 32 n).take 8).filter (· ≠ 0x2D) = (hexDigits 32 n).take 8 :=
    hkeep _ fun c hc ↦ List.mem_of_mem_take hc
  have hlast : ((hexDigits 32 n).drop 20).filter (· ≠ 0x2D) = (hexDigits 32 n).drop 20 :=
    hkeep _ fun c hc ↦ List.mem_of_mem_drop hc
  have hdash : (lit "-").filter (· ≠ 0x2D) = [] := by decide
  have hjoin : ∀ k m, ((hexDigits 32 n).drop k).take m ++ (hexDigits 32 n).drop (k + m) =
      (hexDigits 32 n).drop k := by
    intro k m
    rw [← List.drop_drop, List.take_append_drop]
  calc
    _ = (uuidText n).filter (· ≠ 0x2D) := remove_singleton 0x2D _
    _ = (hexDigits 32 n).take 8 ++ (((hexDigits 32 n).drop 8).take 4 ++
          (((hexDigits 32 n).drop 12).take 4 ++ (((hexDigits 32 n).drop 16).take 4 ++
            (hexDigits 32 n).drop 20))) := by
      simp only [uuidText, List.filter_append, hfirst, htake, hlast, hdash, List.nil_append,
        List.append_assoc]
    _ = hexDigits 32 n := by
      rw [hjoin 16 4, hjoin 12 4, hjoin 8 4, List.take_append_drop]

/-- The text of a UUID parses to the number of the UUID. -/
theorem uuidInt_uuidText {n : ℕ} (h : n < 2 ^ 128) : uuidInt (uuidText n) = .ok n := by
  have hplain : ∀ c ∈ nonDigits, c ≠ 0x2D → c ∉ uuidText n := by
    intro c hc hne hmem
    rcases mem_uuidText hmem with hhex | hdash
    · exact (hexDigits_plain hhex).2.2 hc
    · exact hne (List.mem_singleton.mp hdash)
  have hurn : remove (lit "urn:") (uuidText n) = uuidText n :=
    remove_of_notMem (hplain _ (by decide) (by decide))
  have huuid : remove (lit "uuid:") (uuidText n) = uuidText n :=
    remove_of_notMem (hplain _ (by decide) (by decide))
  have hstrip : strip [0x7B, 0x7D] (uuidText n) = uuidText n := by
    apply strip_of_notMem
    intro c hc hbrace
    rcases List.mem_pair.mp hbrace with rfl | rfl
    · exact hplain _ (by decide) (by decide) hc
    · exact hplain _ (by decide) (by decide) hc
  have hwidth : n < 16 ^ 32 := by
    rw [show (16 : ℕ) ^ 32 = 2 ^ 128 by norm_num]
    exact h
  have hparse : parseInt 16 (hexDigits 32 n) = some (n : ℤ) := parseInt_hexDigits (by decide) hwidth
  have hrange : ¬((n : ℤ) < 0 ∨ 2 ^ 128 ≤ (n : ℤ)) := by omega
  have hhex : remove (lit "-") (strip (lit "\x7b\x7d") (remove (lit "uuid:")
      (remove (lit "urn:") (uuidText n)))) = hexDigits 32 n := by
    rw [hurn, huuid, show lit "\x7b\x7d" = [0x7B, 0x7D] from rfl, hstrip, remove_dash_uuidText]
  unfold uuidInt
  rw [hhex]
  simp only [bind_eq_ok, rejectIf_eq_ok, require_eq_ok, length_hexDigits, hparse]
  exact ⟨(), by simp, n, rfl, (), hrange, rfl⟩

/-! ## Frames -/

theorem slice_append {before middle after : Bytes} {i k : ℕ} (hi : before.length = i)
    (hk : middle.length = k) : ((before ++ (middle ++ after)).drop i).take k = middle := by
  rw [List.drop_left' hi, List.take_left' hk]

/-- The layout of a chunk frame. -/
def layoutChunk (uid seq : ℕ) (data : Bytes) : Bytes :=
  chunkMagic ++ (toBigEndian 16 uid ++ (toBigEndian 4 seq ++ (toBigEndian 4 data.length ++ data)))

section Layout

variable (uid seq : ℕ) (data : Bytes)

theorem magic_layoutChunk : (layoutChunk uid seq data).take 4 = chunkMagic := List.take_left' rfl

theorem uid_layoutChunk : ((layoutChunk uid seq data).drop 4).take 16 = toBigEndian 16 uid :=
  slice_append rfl (length_toBigEndian 16 uid)

theorem seq_layoutChunk : ((layoutChunk uid seq data).drop 20).take 4 = toBigEndian 4 seq := by
  rw [layoutChunk, ← List.append_assoc]
  exact slice_append (by simp [chunkMagic]) (length_toBigEndian 4 seq)

theorem len_layoutChunk : ((layoutChunk uid seq data).drop 24).take 4 = toBigEndian 4 data.length := by
  rw [layoutChunk, ← List.append_assoc, ← List.append_assoc]
  exact slice_append (by simp [chunkMagic]) (length_toBigEndian 4 data.length)

theorem data_layoutChunk : (layoutChunk uid seq data).drop 28 = data := by
  rw [layoutChunk, ← List.append_assoc, ← List.append_assoc, ← List.append_assoc]
  exact List.drop_left' (by simp [chunkMagic])

@[simp] theorem length_layoutChunk : (layoutChunk uid seq data).length = 28 + data.length := by
  simp only [layoutChunk, chunkMagic, List.length_append, length_toBigEndian, List.length_cons,
    List.length_nil]
  omega

end Layout

/-- What `encode_chunk_frame` requires and returns. -/
theorem encodeChunkFrame_eq_ok {transferId : Text} {seq : ℕ} {data plaintext : Bytes} :
    encodeChunkFrame transferId seq data = .ok plaintext ↔
      data.length ≤ maxChunkPayload ∧ seq < 2 ^ 32 ∧ ∃ uid, uuidInt transferId = .ok uid ∧
        plaintext = layoutChunk uid seq data := by
  unfold encodeChunkFrame
  simp only [bind_eq_ok, rejectIf_eq_ok, not_lt, not_le, List.append_assoc]
  constructor
  · rintro ⟨_, hlength, uid, huid, _, hseq, hplaintext⟩
    exact ⟨hlength, hseq, uid, huid, (Except.ok.inj hplaintext).symm⟩
  · rintro ⟨hlength, hseq, uid, huid, rfl⟩
    exact ⟨(), hlength, uid, huid, (), hseq, rfl⟩

/-- The layout that both decoders require of a plaintext. -/
structure IsChunk (plaintext : Bytes) : Prop where
  magic : plaintext.take 4 = chunkMagic
  payloadLen : ofBigEndian ((plaintext.drop 24).take 4) ≤ maxChunkPayload
  length_le : 28 + ofBigEndian ((plaintext.drop 24).take 4) ≤ plaintext.length

/-- What `decode_chunk_frame` requires and returns. -/
theorem decodeChunkFrame_eq_ok {plaintext : Bytes} {chunk : ChunkFrame} :
    decodeChunkFrame plaintext = .ok chunk ↔ IsChunk plaintext ∧
      chunk = ⟨uuidText (ofBigEndian ((plaintext.drop 4).take 16)),
        ofBigEndian ((plaintext.drop 20).take 4),
        (plaintext.drop 28).take (ofBigEndian ((plaintext.drop 24).take 4))⟩ := by
  unfold decodeChunkFrame
  simp only [bind_eq_ok, rejectIf_eq_ok]
  simp only [chunkMagicSize, chunkTransferIdSize, chunkHeaderSize, Nat.reduceAdd, not_lt, ne_eq,
    not_not, gt_iff_lt]
  constructor
  · rintro ⟨_, -, _, hmagic, _, hpayload, _, hlength, hchunk⟩
    exact ⟨⟨hmagic, hpayload, hlength⟩, (Except.ok.inj hchunk).symm⟩
  · rintro ⟨hlayout, rfl⟩
    have hlength := hlayout.length_le
    exact ⟨(), by omega, (), hlayout.magic, (), hlayout.payloadLen, (), hlength, rfl⟩

theorem isChunk_layoutChunk (uid seq : ℕ) {data : Bytes} (hlength : data.length ≤ maxChunkPayload) :
    IsChunk (layoutChunk uid seq data) := by
  have hword : data.length < 256 ^ 4 := lt_of_le_of_lt hlength (by decide)
  constructor
  · exact magic_layoutChunk uid seq data
  · rw [len_layoutChunk, ofBigEndian_toBigEndian hword]
    exact hlength
  · rw [len_layoutChunk, ofBigEndian_toBigEndian hword, length_layoutChunk]

/-- A layout decodes to its parts. -/
theorem decode_layoutChunk {uid seq : ℕ} {data : Bytes} (huid : uid < 2 ^ 128) (hseq : seq < 2 ^ 32)
    (hlength : data.length ≤ maxChunkPayload) :
    decodeChunkFrame (layoutChunk uid seq data) = .ok ⟨uuidText uid, seq, data⟩ := by
  have hword : data.length < 256 ^ 4 := lt_of_le_of_lt hlength (by decide)
  apply decodeChunkFrame_eq_ok.mpr
  refine ⟨isChunk_layoutChunk uid seq hlength, ?_⟩
  rw [uid_layoutChunk, seq_layoutChunk, len_layoutChunk, data_layoutChunk,
    ofBigEndian_toBigEndian (lt_of_lt_of_eq huid (by norm_num)),
    ofBigEndian_toBigEndian (lt_of_lt_of_eq hseq (by norm_num)), ofBigEndian_toBigEndian hword,
    List.take_length]

/-- A frame that was encoded for the canonical text of a UUID decodes to itself. -/
theorem decode_encodeChunkFrame {n seq : ℕ} {data plaintext : Bytes} (hn : n < 2 ^ 128)
    (hencode : encodeChunkFrame (uuidText n) seq data = .ok plaintext) :
    decodeChunkFrame plaintext = .ok ⟨uuidText n, seq, data⟩ := by
  obtain ⟨hlength, hseq, uid, huid, rfl⟩ := encodeChunkFrame_eq_ok.mp hencode
  obtain rfl := Except.ok.inj (huid.symm.trans (uuidInt_uuidText hn))
  exact decode_layoutChunk hn hseq hlength

end Ferry
