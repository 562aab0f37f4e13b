import Ferry.Base.Aead
import Ferry.Base.Exec
import Ferry.Session.KeyAgreement
import Ferry.Transfer.FrameCodec

/-!
# The encrypted channel

How the two implementations encrypt and decrypt frames once the session keys are derived, with ideal
authenticated encryption.  The nonce is carried in the frame and must equal the receiver's own
counter, and each direction has its own key, so what a receiver accepts before its first exception
is a prefix of what was sent to it.
-/

namespace Ferry

/-! ## Frames -/

def aeadHeaderSize : ℕ := 4
def aeadNonceSize : ℕ := 12
def maxAeadPlaintext : ℕ := 1048576

/-- What the two functions raise. -/
inductive ChannelError
  | keysNotDerived
  | plaintextTooLarge (length : ℕ)
  | counterOverflow
  | frameTooShort
  | frameTruncated
  | nonceMismatch (counter : ℕ)
  | illegalRange
  | authenticationFailed
  deriving DecidableEq

/-- The keys and counters of one end.  `made` is the list of what it has encrypted, which ideal
decryption depends on. -/
structure AeadState where
  sendKey : Option Bytes
  recvKey : Option Bytes
  sendCounter : ℕ
  recvCounter : ℕ
  made : List Sealing
  deriving DecidableEq

/-- The state after `derive_keys`. -/
def AeadState.ofKeys (keys : DerivedKeys) : AeadState :=
  ⟨some keys.sendKey, some keys.recvKey, 0, 0, []⟩

/-- `_make_nonce`: four zero bytes and the low 64 bits of the counter. -/
def makeNonce (counter : ℕ) : Bytes := toBigEndian 4 0 ++ toBigEndian 8 counter

/-- The layout of a frame. -/
def layoutFrame (nonce ciphertext : Bytes) : Bytes :=
  toBigEndian aeadHeaderSize ciphertext.length ++ nonce ++ ciphertext

open Exec

namespace FerrySession

/-- `encrypt_frame`. -/
def encryptFrame (aead : Aead) (plaintext : Bytes) : Exec ChannelError AeadState Bytes := do
  let session ← get
  let key ← ofResult (require .keysNotDerived session.sendKey)
  raiseIf (maxAeadPlaintext < plaintext.length) (.plaintextTooLarge plaintext.length)
  raiseIf (2 ^ 64 ≤ session.sendCounter) .counterOverflow
  let nonce := makeNonce session.sendCounter
  modify fun s ↦ { s with sendCounter := s.sendCounter + 1 }
  modify fun s ↦ { s with made := s.made ++ [⟨key, nonce, plaintext⟩] }
  return layoutFrame nonce (aead.encrypt key nonce plaintext)

/-- `decrypt_frame`, when `made` has been encrypted. -/
def decryptFrame (aead : Aead) (made : List Sealing) (frame : Bytes) :
    Exec ChannelError AeadState Bytes := do
  let session ← get
  let key ← ofResult (require .keysNotDerived session.recvKey)
  raiseIf (frame.length < aeadHeaderSize + aeadNonceSize) .frameTooShort
  let ctLen := ofBigEndian (frame.take 4)
  let expectedTotal := aeadHeaderSize + aeadNonceSize + ctLen
  raiseIf (frame.length < expectedTotal) .frameTruncated
  let frameNonce := (frame.drop 4).take aeadNonceSize
  let ciphertext := (frame.take expectedTotal).drop (4 + aeadNonceSize)
  raiseIf (2 ^ 64 ≤ session.recvCounter) .counterOverflow
  raiseIf (frameNonce ≠ makeNonce session.recvCounter) (.nonceMismatch session.recvCounter)
  modify fun s ↦ { s with recvCounter := s.recvCounter + 1 }
  ofResult (require .authenticationFailed (aead.decrypt made key frameNonce ciphertext))

end FerrySession

namespace AndroidFerrySession

/-- `encryptFrame`. -/
def encryptFrame (aead : Aead) (plaintext : Bytes) : Exec ChannelError AeadState Bytes := do
  raiseIf (maxAeadPlaintext < plaintext.length) (.plaintextTooLarge plaintext.length)
  let session ← get
  let key ← ofResult (require .keysNotDerived session.sendKey)
  let nonce := makeNonce session.sendCounter
  modify fun s ↦ { s with sendCounter := s.sendCounter + 1 }
  modify fun s ↦ { s with made := s.made ++ [⟨key, nonce, plaintext⟩] }
  return layoutFrame nonce (aead.encrypt key nonce plaintext)

/-- `decryptFrame`, when `made` has been encrypted.  The ciphertext length is a signed 32-bit number
and so is its sum with the header and nonce sizes; `copyOfRange` throws when its end is before its
start. -/
def decryptFrame (aead : Aead) (made : List Sealing) (frame : Bytes) :
    Exec ChannelError AeadState Bytes := do
  raiseIf (frame.length < aeadHeaderSize + aeadNonceSize) .frameTooShort
  let session ← get
  let key ← ofResult (require .keysNotDerived session.recvKey)
  let ctLen := BitVec.ofNat 32 (ofBigEndian (frame.take 4))
  let expectedTotal := (BitVec.ofNat 32 (aeadHeaderSize + aeadNonceSize) + ctLen).toInt
  raiseIf ((frame.length : ℤ) < expectedTotal) .frameTruncated
  let frameNonce := (frame.drop aeadHeaderSize).take aeadNonceSize
  raiseIf (frameNonce ≠ makeNonce session.recvCounter) (.nonceMismatch session.recvCounter)
  modify fun s ↦ { s with recvCounter := s.recvCounter + 1 }
  raiseIf (expectedTotal < aeadHeaderSize + aeadNonceSize) .illegalRange
  let ciphertext := (frame.take expectedTotal.toNat).drop (aeadHeaderSize + aeadNonceSize)
  ofResult (require .authenticationFailed (aead.decrypt made key frameNonce ciphertext))

end AndroidFerrySession

namespace Implementation

def encryptFrame : Implementation → Aead → Bytes → Exec ChannelError AeadState Bytes
  | linux => FerrySession.encryptFrame
  | android => AndroidFerrySession.encryptFrame

def decryptFrame : Implementation → Aead → List Sealing → Bytes → Exec ChannelError AeadState Bytes
  | linux => FerrySession.decryptFrame
  | android => AndroidFerrySession.decryptFrame

/-- Encrypt plaintexts in order. -/
def encryptAll (impl : Implementation) (aead : Aead) :
    List Bytes → Exec ChannelError AeadState (List Bytes)
  | [] => pure []
  | plaintext :: plaintexts => do
    let frame ← impl.encryptFrame aead plaintext
    let frames ← impl.encryptAll aead plaintexts
    return frame :: frames

/-- Decrypt frames until the first exception: the plaintexts returned, and the state reached. -/
def decryptUntilError (impl : Implementation) (aead : Aead) (made : List Sealing) :
    List Bytes → AeadState → List Bytes × AeadState
  | [], s => ([], s)
  | frame :: frames, s =>
    match impl.decryptFrame aead made frame s with
    | (.ok plaintext, s') =>
      let (plaintexts, s'') := impl.decryptUntilError aead made frames s'
      (plaintext :: plaintexts, s'')
    | (.error _, s') => ([], s')

end Implementation

/-! ## Reading back a frame -/

theorem ofBigEndian_append (data : Bytes) (b : UInt8) :
    ofBigEndian (data ++ [b]) = ofBigEndian data * 256 + b.toNat := by
  simp [ofBigEndian]

theorem toBigEndian_succ (width n : ℕ) :
    toBigEndian (width + 1) n = toBigEndian width (n / 256) ++ [UInt8.ofNat n] := by
  have hdigits : ∀ i ∈ List.range width, UInt8.ofNat (n / 256 ^ (width + 1 - 1 - i)) =
      UInt8.ofNat (n / 256 / 256 ^ (width - 1 - i)) := by
    intro i hi
    have hexp : width + 1 - 1 - i = width - 1 - i + 1 := by
      have hlt := List.mem_range.mp hi
      omega
    rw [hexp, pow_succ', Nat.div_div_eq_div_mul]
  rw [toBigEndian, List.range_succ, List.map_append, List.map_congr_left hdigits]
  simp [toBigEndian]

/-- Every word is the encoding of its value. -/
theorem toBigEndian_ofBigEndian (data : Bytes) : toBigEndian data.length (ofBigEndian data) = data := by
  induction data using List.reverseRecOn with
  | nil => rfl
  | append_singleton data b ih =>
    have hdiv : (ofBigEndian data * 256 + b.toNat) / 256 = ofBigEndian data := by
      have hb := b.toNat_lt
      omega
    have hmod : UInt8.ofNat (ofBigEndian data * 256 + b.toNat) = b := by
      apply UInt8.toNat_inj.mp
      rw [UInt8.toNat_ofNat']
      have hb := b.toNat_lt
      omega
    rw [List.length_append, List.length_singleton, toBigEndian_succ, ofBigEndian_append, hdiv, hmod, ih]

theorem ofBigEndian_lt (data : Bytes) : ofBigEndian data < 256 ^ data.length := by
  induction data using List.reverseRecOn with
  | nil => decide
  | append_singleton data b ih =>
    have hb := b.toNat_lt
    rw [ofBigEndian_append, List.length_append, List.length_singleton, pow_succ]
    omega

/-- A header is a 32-bit word. -/
theorem header_lt (frame : Bytes) : ofBigEndian (frame.take 4) < 2 ^ 32 :=
  calc
    _ < 256 ^ (frame.take 4).length := ofBigEndian_lt _
    _ ≤ 256 ^ 4 := Nat.pow_le_pow_right (by decide) (List.length_take_le 4 frame)
    _ = 2 ^ 32 := by norm_num

@[simp] theorem length_makeNonce (counter : ℕ) : (makeNonce counter).length = aeadNonceSize := by
  simp [makeNonce, aeadNonceSize]

theorem makeNonce_injOn {i k : ℕ} (hi : i < 2 ^ 64) (hk : k < 2 ^ 64) (h : makeNonce i = makeNonce k) :
    i = k := by
  have hwords : toBigEndian 8 i = toBigEndian 8 k := List.append_cancel_left h
  have hvalues := congrArg ofBigEndian hwords
  rwa [ofBigEndian_toBigEndian (lt_of_lt_of_eq hi (by norm_num)),
    ofBigEndian_toBigEndian (lt_of_lt_of_eq hk (by norm_num))] at hvalues

@[simp] theorem length_layoutFrame (nonce ciphertext : Bytes) :
    (layoutFrame nonce ciphertext).length = aeadHeaderSize + nonce.length + ciphertext.length := by
  simp [layoutFrame]
  omega

section Layout

variable {nonce ciphertext rest : Bytes}

theorem header_layoutFrame (hlength : ciphertext.length < 2 ^ 32) :
    ofBigEndian ((layoutFrame nonce ciphertext ++ rest).take 4) = ciphertext.length := by
  have htake : (layoutFrame nonce ciphertext ++ rest).take 4 = toBigEndian 4 ciphertext.length := by
    rw [layoutFrame, List.append_assoc, List.append_assoc, aeadHeaderSize]
    exact List.take_left' (length_toBigEndian 4 _)
  rw [htake, ofBigEndian_toBigEndian (lt_of_lt_of_eq hlength (by norm_num))]

theorem nonce_layoutFrame (hnonce : nonce.length = aeadNonceSize) :
    ((layoutFrame nonce ciphertext ++ rest).drop 4).take aeadNonceSize = nonce := by
  have hdrop : (layoutFrame nonce ciphertext ++ rest).drop 4 = nonce ++ (ciphertext ++ rest) := by
    rw [layoutFrame, List.append_assoc, List.append_assoc, aeadHeaderSize]
    exact List.drop_left' (length_toBigEndian 4 _)
  rw [hdrop]
  exact List.take_left' hnonce

theorem ciphertext_layoutFrame (hnonce : nonce.length = aeadNonceSize) :
    ((layoutFrame nonce ciphertext ++ rest).take
        (aeadHeaderSize + aeadNonceSize + ciphertext.length)).drop (4 + aeadNonceSize) = ciphertext := by
  have htake : (layoutFrame nonce ciphertext ++ rest).take
      (aeadHeaderSize + aeadNonceSize + ciphertext.length) = layoutFrame nonce ciphertext := by
    apply List.take_left'
    rw [length_layoutFrame, hnonce]
  rw [htake, layoutFrame]
  apply List.drop_left'
  rw [List.length_append, length_toBigEndian, hnonce, aeadHeaderSize]

end Layout

/-- What a receiver reads is a frame with its own header, and some bytes behind it. -/
theorem eq_layoutFrame_append {frame : Bytes}
    (h : aeadHeaderSize + aeadNonceSize + ofBigEndian (frame.take 4) ≤ frame.length) :
    ∃ ciphertext rest, frame = layoutFrame ((frame.drop 4).take aeadNonceSize) ciphertext ++ rest ∧
      ciphertext.length = ofBigEndian (frame.take 4) ∧
      ciphertext = (frame.take (aeadHeaderSize + aeadNonceSize + ofBigEndian (frame.take 4))).drop
        (4 + aeadNonceSize) := by
  set n := ofBigEndian (frame.take 4) with hn
  simp only [aeadHeaderSize, aeadNonceSize] at h ⊢
  have hheader : toBigEndian 4 n = frame.take 4 := by
    have hlength : (frame.take 4).length = 4 := by simp; omega
    have hword := toBigEndian_ofBigEndian (frame.take 4)
    rwa [hlength] at hword
  have hciphertext : ((frame.take (4 + 12 + n)).drop (4 + 12)).length = n := by
    rw [List.length_drop, List.length_take]
    omega
  refine ⟨(frame.take (4 + 12 + n)).drop (4 + 12), frame.drop (4 + 12 + n), ?_, hciphertext, rfl⟩
  have hmiddle : (frame.drop 4).take 12 = (frame.take 16).drop 4 := by
    rw [List.drop_take]
  calc
    frame = frame.take (4 + 12 + n) ++ frame.drop (4 + 12 + n) := (List.take_append_drop _ _).symm
    _ = ((frame.take (4 + 12 + n)).take 16 ++ (frame.take (4 + 12 + n)).drop 16) ++
          frame.drop (4 + 12 + n) := by rw [List.take_append_drop 16]
    _ = (((frame.take 16).take 4 ++ (frame.take 16).drop 4) ++ (frame.take (4 + 12 + n)).drop 16) ++
          frame.drop (4 + 12 + n) := by
      rw [List.take_append_drop 4, List.take_take, Nat.min_eq_left (by omega)]
    _ = _ := by
      rw [layoutFrame, hciphertext, aeadHeaderSize, hheader, List.take_take, hmiddle]
      rfl

/-! ## One call of each function -/

section Calls

variable {aead : Aead} {made : List Sealing} {key plaintext frame : Bytes} {s s' : AeadState}

/-- An encrypted frame carries the counter, and the counter advances. -/
theorem encryptFrame_eq_ok (impl : Implementation) (hkey : s.sendKey = some key)
    (hlength : plaintext.length ≤ maxAeadPlaintext) (hcounter : s.sendCounter < 2 ^ 64) :
    impl.encryptFrame aead plaintext s =
      (.ok (layoutFrame (makeNonce s.sendCounter)
          (aead.encrypt key (makeNonce s.sendCounter) plaintext)),
        { s with
          sendCounter := s.sendCounter + 1
          made := s.made ++ [⟨key, makeNonce s.sendCounter, plaintext⟩] }) := by
  cases impl with
  | linux =>
    apply Prod.ext_iff.mpr
    change wp _ (fun r s' ↦ r = _ ∧ s' = _) s
    have hsmall : s.sendCounter < 18446744073709551616 := hcounter
    simp [Implementation.encryptFrame, FerrySession.encryptFrame, hkey, require, hlength, hsmall]
  | android =>
    apply Prod.ext_iff.mpr
    change wp _ (fun r s' ↦ r = _ ∧ s' = _) s
    simp [Implementation.encryptFrame, AndroidFerrySession.encryptFrame, hkey, require, hlength]

/-- What has been encrypted is under the key, within the size limit and with nonces of their fixed
size. -/
def MadeUnder (key : Option Bytes) (made : List Sealing) : Prop :=
  ∀ x ∈ made, some x.key = key ∧ x.nonce.length = aeadNonceSize ∧
    x.plaintext.length ≤ maxAeadPlaintext

theorem MadeUnder.concat {counter : ℕ} (h : MadeUnder (some key) made)
    (hlength : plaintext.length ≤ maxAeadPlaintext) :
    MadeUnder (some key) (made ++ [⟨key, makeNonce counter, plaintext⟩]) := by
  intro y hy
  rcases List.mem_append.mp hy with hold | hlast
  · exact h y hold
  · rw [List.mem_singleton.mp hlast]
    exact ⟨rfl, length_makeNonce counter, hlength⟩

/-- Only the sending half changed, and it uses its own key. -/
structure SendsOnly (s s' : AeadState) : Prop where
  sendKey : s'.sendKey = s.sendKey
  recvKey : s'.recvKey = s.recvKey
  recvCounter : s'.recvCounter = s.recvCounter
  made : MadeUnder s.sendKey s.made → MadeUnder s.sendKey s'.made

instance : IsPreorder AeadState SendsOnly where
  refl _ := ⟨rfl, rfl, rfl, id⟩
  trans _ _ _ h h' :=
    ⟨h'.sendKey.trans h.sendKey, h'.recvKey.trans h.recvKey, h'.recvCounter.trans h.recvCounter,
      fun hmade ↦ h.sendKey ▸ h'.made (h.sendKey.symm ▸ h.made hmade)⟩

/-- The two updates of a call that encrypts. -/
theorem sendsOnly_sealed (hkey : s.sendKey = some key)
    (hlength : ¬maxAeadPlaintext < plaintext.length) (counter : ℕ) :
    SendsOnly s { s with
      sendCounter := counter + 1
      made := s.made ++ [⟨key, makeNonce counter, plaintext⟩] } where
  sendKey := rfl
  recvKey := rfl
  recvCounter := rfl
  made hmade := by
    rw [hkey] at hmade ⊢
    exact hmade.concat (not_lt.mp hlength)

theorem stays_encryptFrame (impl : Implementation) :
    Stays SendsOnly (impl.encryptFrame aead plaintext) := by
  intro s
  have hsame : SendsOnly s s := refl_of SendsOnly s
  cases impl with
  | linux =>
    unfold Implementation.encryptFrame FerrySession.encryptFrame
    simp only [wp_get_bind, wp_ofResult_bind, wp_raiseIf_bind, wp_modify_bind, wp_pure, require_eq_ok]
    exact ⟨fun _ _ ↦ hsame, fun key hkey ↦ ⟨fun _ ↦ hsame, fun hlength ↦ ⟨fun _ ↦ hsame,
      fun _ ↦ sendsOnly_sealed hkey hlength s.sendCounter⟩⟩⟩
  | android =>
    unfold Implementation.encryptFrame AndroidFerrySession.encryptFrame
    simp only [wp_get_bind, wp_ofResult_bind, wp_raiseIf_bind, wp_modify_bind, wp_pure, require_eq_ok]
    exact ⟨fun _ ↦ hsame, fun hlength ↦ ⟨fun _ _ ↦ hsame,
      fun key hkey ↦ sendsOnly_sealed hkey hlength s.sendCounter⟩⟩

/-- The longest ciphertext that an implementation reads. -/
def Implementation.maxCiphertext : Implementation → ℕ
  | linux => 2 ^ 32
  | android => 2 ^ 31 - 16

/-- The checks of one receiver, all passed. -/
structure Accepts (impl : Implementation) (aead : Aead) (made : List Sealing) (frame plaintext : Bytes)
    (s : AeadState) (key : Bytes) : Prop where
  recvKey : s.recvKey = some key
  length_le : aeadHeaderSize + aeadNonceSize + ofBigEndian (frame.take 4) ≤ frame.length
  header_lt : ofBigEndian (frame.take 4) < impl.maxCiphertext
  nonce : (frame.drop 4).take aeadNonceSize = makeNonce s.recvCounter
  decrypts : aead.decrypt made key (makeNonce s.recvCounter)
    ((frame.take (aeadHeaderSize + aeadNonceSize + ofBigEndian (frame.take 4))).drop
      (4 + aeadNonceSize)) = some plaintext

theorem decryptFrame_eq_ok_linux (hcounter : s.recvCounter < 2 ^ 64) :
    FerrySession.decryptFrame aead made frame s = (.ok plaintext, s') ↔
      (∃ key, Accepts .linux aead made frame plaintext s key) ∧
        s' = { s with recvCounter := s.recvCounter + 1 } := by
  unfold FerrySession.decryptFrame
  simp only [get_bind_run, ofResult_bind_run_eq_ok, raiseIf_bind_run_eq_ok, modify_bind_run,
    ofResult_run_eq_ok, require_eq_ok, not_lt, not_le, ne_eq, not_not]
  constructor
  · rintro ⟨key, hkey, -, hlength, -, hnonce, hdecrypts, hstate⟩
    rw [hnonce] at hdecrypts
    exact ⟨⟨key, hkey, hlength, header_lt frame, hnonce, hdecrypts⟩, hstate.symm⟩
  · rintro ⟨⟨key, haccepts⟩, hstate⟩
    have hshort := haccepts.length_le
    have hdecrypts := haccepts.decrypts
    rw [← haccepts.nonce] at hdecrypts
    exact ⟨key, haccepts.recvKey, by omega, haccepts.length_le, hcounter, haccepts.nonce, hdecrypts,
      hstate.symm⟩

/-- The signed sum is at least 16 when it did not wrap. -/
theorem expectedTotal_android {n : ℕ} (hn : n < 2 ^ 32) :
    ((aeadHeaderSize + aeadNonceSize : ℕ) : ℤ) ≤
        (BitVec.ofNat 32 (aeadHeaderSize + aeadNonceSize) + BitVec.ofNat 32 n).toInt ↔
      n < Implementation.android.maxCiphertext := by
  rw [← BitVec.ofNat_add, BitVec.toInt_eq_toNat_cond, BitVec.toNat_ofNat, Implementation.maxCiphertext]
  simp only [aeadHeaderSize, aeadNonceSize]
  split_ifs <;> omega

theorem expectedTotal_android_eq {n : ℕ} (hn : n < Implementation.android.maxCiphertext) :
    (BitVec.ofNat 32 (aeadHeaderSize + aeadNonceSize) + BitVec.ofNat 32 n).toInt =
      (aeadHeaderSize + aeadNonceSize + n : ℕ) := by
  rw [Implementation.maxCiphertext] at hn
  rw [← BitVec.ofNat_add, BitVec.toInt_eq_toNat_cond, BitVec.toNat_ofNat]
  simp only [aeadHeaderSize, aeadNonceSize]
  split_ifs <;> omega

theorem decryptFrame_eq_ok_android :
    AndroidFerrySession.decryptFrame aead made frame s = (.ok plaintext, s') ↔
      (∃ key, Accepts .android aead made frame plaintext s key) ∧
        s' = { s with recvCounter := s.recvCounter + 1 } := by
  unfold AndroidFerrySession.decryptFrame
  simp only [get_bind_run, ofResult_bind_run_eq_ok, raiseIf_bind_run_eq_ok, modify_bind_run,
    ofResult_run_eq_ok, require_eq_ok, not_lt, ne_eq, not_not]
  constructor
  · rintro ⟨-, key, hkey, hlength, hnonce, hrange, hdecrypts, hstate⟩
    have hheader : ofBigEndian (frame.take 4) < Implementation.android.maxCiphertext :=
      (expectedTotal_android (header_lt frame)).mp (by exact_mod_cast hrange)
    have htotal := expectedTotal_android_eq hheader
    rw [htotal] at hlength hdecrypts
    rw [hnonce, Int.toNat_natCast] at hdecrypts
    exact ⟨⟨key, hkey, by exact_mod_cast hlength, hheader, hnonce, hdecrypts⟩, hstate.symm⟩
  · rintro ⟨⟨key, haccepts⟩, hstate⟩
    have htotal := expectedTotal_android_eq haccepts.header_lt
    have hrange := (expectedTotal_android (header_lt frame)).mpr haccepts.header_lt
    have hlength := haccepts.length_le
    have hdecrypts := haccepts.decrypts
    rw [← haccepts.nonce] at hdecrypts
    refine ⟨by omega, key, haccepts.recvKey, ?_, haccepts.nonce, by exact_mod_cast hrange, ?_,
      hstate.symm⟩
    · rw [htotal]
      exact_mod_cast hlength
    · rw [htotal, Int.toNat_natCast]
      exact hdecrypts

theorem decryptFrame_eq_ok_iff (impl : Implementation) (hcounter : s.recvCounter < 2 ^ 64) :
    impl.decryptFrame aead made frame s = (.ok plaintext, s') ↔
      (∃ key, Accepts impl aead made frame plaintext s key) ∧
        s' = { s with recvCounter := s.recvCounter + 1 } := by
  cases impl with
  | linux => exact decryptFrame_eq_ok_linux hcounter
  | android => exact decryptFrame_eq_ok_android

end Calls

/-! ## All frames of one direction -/

/-- The frame of a sealing. -/
def Sealing.frame (aead : Aead) (x : Sealing) : Bytes :=
  layoutFrame x.nonce (aead.encrypt x.key x.nonce x.plaintext)

/-- What encrypting plaintexts in order makes, from a counter on. -/
def sealingsFrom (key : Bytes) (counter : ℕ) : List Bytes → List Sealing
  | [] => []
  | plaintext :: plaintexts =>
    ⟨key, makeNonce counter, plaintext⟩ :: sealingsFrom key (counter + 1) plaintexts

theorem getElem?_sealingsFrom (key : Bytes) (counter : ℕ) (sent : List Bytes) (i : ℕ) :
    (sealingsFrom key counter sent)[i]? =
      sent[i]?.map fun plaintext ↦ ⟨key, makeNonce (counter + i), plaintext⟩ := by
  induction sent generalizing counter i with
  | nil => simp [sealingsFrom]
  | cons plaintext plaintexts ih =>
    cases i with
    | zero => simp [sealingsFrom]
    | succ i =>
      rw [sealingsFrom, List.getElem?_cons_succ, List.getElem?_cons_succ, ih]
      simp [Nat.add_assoc, Nat.add_comm 1 i]

@[simp] theorem length_sealingsFrom (key : Bytes) (counter : ℕ) (sent : List Bytes) :
    (sealingsFrom key counter sent).length = sent.length := by
  induction sent generalizing counter with
  | nil => rfl
  | cons plaintext plaintexts ih => simp [sealingsFrom, ih]

section Direction

variable {aead : Aead} {key : Bytes} {sent : List Bytes}

/-- Encrypting in order never raises while the counter lasts. -/
theorem encryptAll_eq_ok (impl : Implementation) {s : AeadState} (hkey : s.sendKey = some key)
    (hlength : ∀ plaintext ∈ sent, plaintext.length ≤ maxAeadPlaintext)
    (hcount : s.sendCounter + sent.length ≤ 2 ^ 64) :
    impl.encryptAll aead sent s =
      (.ok ((sealingsFrom key s.sendCounter sent).map (Sealing.frame aead)),
        { s with
          sendCounter := s.sendCounter + sent.length
          made := s.made ++ sealingsFrom key s.sendCounter sent }) := by
  induction sent generalizing s with
  | nil => simp [Implementation.encryptAll, sealingsFrom, pure]
  | cons plaintext plaintexts ih =>
    rw [List.length_cons] at hcount
    have hhead : impl.encryptFrame aead plaintext s = _ :=
      encryptFrame_eq_ok impl hkey (hlength plaintext List.mem_cons_self) (by omega)
    rw [Implementation.encryptAll, bind_run_eq_ok]
    refine ⟨_, _, hhead, ?_⟩
    rw [bind_run_eq_ok]
    refine ⟨_, _, ih hkey (fun p hp ↦ hlength p (List.mem_cons_of_mem plaintext hp)) ?_, ?_⟩
    · dsimp only
      omega
    · simp only [pure, sealingsFrom, List.map_cons, List.length_cons, List.append_assoc,
        List.singleton_append, Nat.add_assoc, Nat.add_comm 1]
      rfl

theorem stays_encryptAll (impl : Implementation) :
    Stays SendsOnly (impl.encryptAll aead sent) := by
  induction sent with
  | nil => exact stays_pure []
  | cons plaintext plaintexts ih =>
    exact stays_bind (stays_encryptFrame impl) fun frame ↦
      stays_bind ih fun frames ↦ stays_pure (frame :: frames)

/-! ## What a receiver accepts -/

/-- What ideal decryption knows about one key: exactly what was sent under it. -/
structure MadeFor (key : Bytes) (sent : List Bytes) (made : List Sealing) : Prop where
  sent_le : ∀ x ∈ sealingsFrom key 0 sent, x ∈ made
  le_sent : ∀ x ∈ made, x.key = key → x ∈ sealingsFrom key 0 sent

variable {made : List Sealing} (hmade : MadeFor key sent made)
  (hlength : ∀ plaintext ∈ sent, plaintext.length ≤ maxAeadPlaintext) (hcount : sent.length ≤ 2 ^ 64)

include hmade in
/-- A sealing under the key with the nonce of a counter is the plaintext with that number. -/
theorem mem_made_iff {k : ℕ} (hcount : sent.length ≤ 2 ^ 64) (hk : k < 2 ^ 64) {plaintext : Bytes} :
    ⟨key, makeNonce k, plaintext⟩ ∈ made ↔ sent[k]? = some plaintext := by
  constructor
  · intro hmem
    have hseal := hmade.le_sent _ hmem rfl
    obtain ⟨i, hi⟩ := List.mem_iff_getElem?.mp hseal
    rw [getElem?_sealingsFrom, Option.map_eq_some_iff] at hi
    obtain ⟨p, hp, heq⟩ := hi
    injection heq with _ hnonce hplaintext
    have hlt := (List.getElem?_eq_some_iff.mp hp).1
    have hindex : i = k := by
      rw [Nat.zero_add] at hnonce
      exact makeNonce_injOn (by omega) (by omega) hnonce
    rw [← hindex, hp, hplaintext]
  · intro hget
    apply hmade.sent_le
    apply List.mem_iff_getElem?.mpr
    refine ⟨k, ?_⟩
    rw [getElem?_sealingsFrom, hget, Option.map_some, Nat.zero_add]

/-- A receiver accepts the frame of a sealing with its own counter, with anything behind it. -/
theorem accepts_of_mem (impl : Implementation) {s : AeadState} (hkey : s.recvKey = some key)
    {plaintext rest : Bytes} (hlength : plaintext.length ≤ maxAeadPlaintext)
    (hmem : ⟨key, makeNonce s.recvCounter, plaintext⟩ ∈ made) :
    Accepts impl aead made
      ((⟨key, makeNonce s.recvCounter, plaintext⟩ : Sealing).frame aead ++ rest) plaintext s key := by
  have hciphertext := aead.length_encrypt key (makeNonce s.recvCounter) plaintext
  rw [maxAeadPlaintext] at hlength
  have hword : (aead.encrypt key (makeNonce s.recvCounter) plaintext).length < 2 ^ 32 := by
    rw [hciphertext]
    omega
  have hheader := @header_layoutFrame (makeNonce s.recvCounter) _ rest hword
  change Accepts impl aead made (layoutFrame (makeNonce s.recvCounter)
    (aead.encrypt key (makeNonce s.recvCounter) plaintext) ++ rest) plaintext s key
  refine ⟨hkey, ?_, ?_, ?_, ?_⟩
  · rw [hheader, List.length_append, length_layoutFrame, length_makeNonce]
    omega
  · rw [hheader, hciphertext]
    cases impl <;> simp only [Implementation.maxCiphertext] <;> omega
  · rw [nonce_layoutFrame (length_makeNonce s.recvCounter)]
  · rw [hheader, ciphertext_layoutFrame (length_makeNonce s.recvCounter)]
    exact Aead.decrypt_eq_some.mpr ⟨hmem, rfl⟩

include hmade hlength hcount in
/-- After `k` frames the receiver accepts the frame with the number `k`, with anything behind it, and
no other. -/
theorem exists_accepts_iff (impl : Implementation) {s : AeadState} (hkey : s.recvKey = some key)
    (hk : s.recvCounter < 2 ^ 64) {frame plaintext : Bytes} :
    (∃ key, Accepts impl aead made frame plaintext s key) ↔
      sent[s.recvCounter]? = some plaintext ∧
        (⟨key, makeNonce s.recvCounter, plaintext⟩ : Sealing).frame aead <+: frame := by
  constructor
  · rintro ⟨key', haccepts⟩
    have hsame : key = key' := Option.some.inj (hkey.symm.trans haccepts.recvKey)
    subst hsame
    obtain ⟨hmem, hencrypt⟩ := Aead.decrypt_eq_some.mp haccepts.decrypts
    obtain ⟨ciphertext, rest, hframe, -, hciphertext⟩ := eq_layoutFrame_append haccepts.length_le
    refine ⟨(mem_made_iff hmade hcount hk).mp hmem, rest, ?_⟩
    rw [Sealing.frame, hencrypt, ← hciphertext, ← haccepts.nonce]
    exact hframe.symm
  · rintro ⟨hget, rest, hframe⟩
    have hsent := hlength plaintext (List.mem_of_getElem? hget)
    rw [← hframe]
    exact ⟨key, accepts_of_mem impl hkey hsent ((mem_made_iff hmade hcount hk).mpr hget)⟩

include hmade hlength hcount in
/-- One call of a receiver that has accepted `s.recvCounter` frames. -/
theorem decryptFrame_run (impl : Implementation) {s s' : AeadState} (hkey : s.recvKey = some key)
    (hk : s.recvCounter < 2 ^ 64) {frame plaintext : Bytes} :
    impl.decryptFrame aead made frame s = (.ok plaintext, s') ↔
      (sent[s.recvCounter]? = some plaintext ∧
        (⟨key, makeNonce s.recvCounter, plaintext⟩ : Sealing).frame aead <+: frame) ∧
        s' = { s with recvCounter := s.recvCounter + 1 } := by
  rw [decryptFrame_eq_ok_iff impl hk, exists_accepts_iff hmade hlength hcount impl hkey hk]

include hmade hlength in
/-- The plaintexts returned before the first exception are the next ones that were sent. -/
theorem decryptUntilError_isPrefix (hcount : sent.length < 2 ^ 64) (impl : Implementation)
    (frames : List Bytes) {s : AeadState} (hkey : s.recvKey = some key)
    (hk : s.recvCounter ≤ sent.length) :
    (impl.decryptUntilError aead made frames s).1 <+: sent.drop s.recvCounter ∧
      ((impl.decryptUntilError aead made frames s).1.length = frames.length →
        (impl.decryptUntilError aead made frames s).2 =
          { s with recvCounter := s.recvCounter + frames.length }) := by
  induction frames generalizing s with
  | nil => exact ⟨List.nil_prefix, fun _ ↦ rfl⟩
  | cons frame frames ih =>
    rw [Implementation.decryptUntilError]
    rcases hrun : impl.decryptFrame aead made frame s with ⟨r, t⟩
    cases r with
    | error e => exact ⟨List.nil_prefix, fun h ↦ by simp at h⟩
    | ok plaintext =>
      obtain ⟨⟨hget, -⟩, rfl⟩ :=
        (decryptFrame_run hmade hlength hcount.le impl hkey (hk.trans_lt hcount)).mp hrun
      have hlt := (List.getElem?_eq_some_iff.mp hget).1
      have hkey' : ({ s with recvCounter := s.recvCounter + 1 } : AeadState).recvKey = some key := hkey
      have hnext := ih hkey' hlt
      have hdrop : sent.drop s.recvCounter = plaintext :: sent.drop (s.recvCounter + 1) := by
        rw [List.drop_eq_getElem_cons hlt, (List.getElem?_eq_some_iff.mp hget).2]
      constructor
      · rw [hdrop]
        exact List.cons_prefix_cons.mpr ⟨rfl, hnext.1⟩
      · intro h
        have hstate := hnext.2 (by simpa using h)
        rw [List.length_cons]
        simpa [Nat.add_assoc, Nat.add_comm 1] using hstate

include hmade hlength hcount in
/-- Frames delivered as they were sent are all accepted. -/
theorem decryptUntilError_wire (impl : Implementation) {rest : List Bytes} {s : AeadState}
    (hkey : s.recvKey = some key) (hrest : rest <+: sent.drop s.recvCounter) :
    (impl.decryptUntilError aead made ((sealingsFrom key s.recvCounter rest).map (Sealing.frame aead))
      s).1 = rest := by
  induction rest generalizing s with
  | nil => rfl
  | cons plaintext rest ih =>
    obtain ⟨after, hafter⟩ := hrest
    have hget : sent[s.recvCounter]? = some plaintext := by
      rw [← List.head?_drop, ← hafter]
      rfl
    have hlt := (List.getElem?_eq_some_iff.mp hget).1
    have hdrop : rest <+: sent.drop (s.recvCounter + 1) := by
      rw [← List.tail_drop, ← hafter]
      exact List.prefix_append rest after
    have hrun : impl.decryptFrame aead made
        ((⟨key, makeNonce s.recvCounter, plaintext⟩ : Sealing).frame aead) s =
          (.ok plaintext, { s with recvCounter := s.recvCounter + 1 }) :=
      (decryptFrame_run hmade hlength hcount impl hkey (by omega)).mpr
        ⟨⟨hget, List.prefix_refl _⟩, rfl⟩
    rw [sealingsFrom, List.map_cons, Implementation.decryptUntilError, hrun]
    have hkey' : ({ s with recvCounter := s.recvCounter + 1 } : AeadState).recvKey = some key := hkey
    have hnext := ih hkey' hdrop
    simp only [hnext]

end Direction

/-! ## The channel between two ends -/

/-- Different sealings have different ciphertexts, as ideal encryption gives. -/
def Aead.Ideal (aead : Aead) (made : List Sealing) : Prop :=
  ∀ x ∈ made, ∀ y ∈ made,
    aead.encrypt x.key x.nonce x.plaintext = aead.encrypt y.key y.nonce y.plaintext → x = y

instance (aead : Aead) (made : List Sealing) : Decidable (aead.Ideal made) :=
  inferInstanceAs (Decidable (∀ x ∈ made, ∀ y ∈ made, _ → _))

/-- Two layouts with nonces of the fixed size, one at the start of the other, are the same. -/
theorem layoutFrame_isPrefix {nonce nonce' ciphertext ciphertext' : Bytes}
    (hnonce : nonce.length = aeadNonceSize) (hnonce' : nonce'.length = aeadNonceSize)
    (hword : ciphertext.length < 2 ^ 32) (hword' : ciphertext'.length < 2 ^ 32)
    (h : layoutFrame nonce ciphertext <+: layoutFrame nonce' ciphertext') :
    nonce = nonce' ∧ ciphertext = ciphertext' := by
  obtain ⟨rest, hrest⟩ := h
  have hnonces : nonce = nonce' :=
    calc
      nonce = ((layoutFrame nonce ciphertext ++ rest).drop 4).take aeadNonceSize :=
        (nonce_layoutFrame hnonce).symm
      _ = ((layoutFrame nonce' ciphertext' ++ []).drop 4).take aeadNonceSize := by
        rw [hrest, List.append_nil]
      _ = nonce' := nonce_layoutFrame hnonce'
  have hlengths : ciphertext.length = ciphertext'.length :=
    calc
      ciphertext.length = ofBigEndian ((layoutFrame nonce ciphertext ++ rest).take 4) :=
        (header_layoutFrame hword).symm
      _ = ofBigEndian ((layoutFrame nonce' ciphertext' ++ []).take 4) := by
        rw [hrest, List.append_nil]
      _ = ciphertext'.length := header_layoutFrame hword'
  have hwhole := congrArg List.length hrest
  rw [List.length_append, length_layoutFrame, length_layoutFrame, hnonces, hlengths] at hwhole
  have hnil : rest = [] := List.eq_nil_of_length_eq_zero (by omega)
  rw [hnil, List.append_nil] at hrest
  refine ⟨hnonces, ?_⟩
  exact (List.append_inj' hrest hlengths).2

/-- One sealing's frame at the start of another's, under nonces of the fixed size. -/
theorem encrypt_eq_of_isPrefix {aead : Aead} {x y : Sealing} (hx : x.nonce.length = aeadNonceSize)
    (hy : y.nonce.length = aeadNonceSize) (hxp : x.plaintext.length ≤ maxAeadPlaintext)
    (hyp : y.plaintext.length ≤ maxAeadPlaintext) (h : x.frame aead <+: y.frame aead) :
    x.nonce = y.nonce ∧
      aead.encrypt x.key x.nonce x.plaintext = aead.encrypt y.key y.nonce y.plaintext := by
  rw [maxAeadPlaintext] at hxp hyp
  apply layoutFrame_isPrefix hx hy _ _ h
  · rw [aead.length_encrypt]
    omega
  · rw [aead.length_encrypt]
    omega

/-- Decrypting the frame raises. -/
def Rejects (impl : Implementation) (aead : Aead) (made : List Sealing) (s : AeadState) (frame : Bytes) :
    Prop :=
  ∃ e, (impl.decryptFrame aead made frame s).1 = .error e

section Rejects

variable {aead : Aead} {key : Bytes} {sent : List Bytes} {made : List Sealing}
  (hmade : MadeFor key sent made)
  (hlength : ∀ plaintext ∈ sent, plaintext.length ≤ maxAeadPlaintext) (hcount : sent.length ≤ 2 ^ 64)
  {impl : Implementation} {s : AeadState} (hkey : s.recvKey = some key)
  (hk : s.recvCounter < 2 ^ 64)

include hmade hlength hcount hkey hk

theorem rejects_of_not_isPrefix {frame : Bytes}
    (hnot : ∀ plaintext, sent[s.recvCounter]? = some plaintext →
      ¬(⟨key, makeNonce s.recvCounter, plaintext⟩ : Sealing).frame aead <+: frame) :
    Rejects impl aead made s frame := by
  rcases hrun : impl.decryptFrame aead made frame s with ⟨r, t⟩
  cases r with
  | error e => exact ⟨e, by rw [hrun]⟩
  | ok plaintext =>
    have haccepts := ((decryptFrame_run hmade hlength hcount impl hkey hk).mp hrun).1
    exact absurd haccepts.2 (hnot plaintext haccepts.1)

/-- A frame of the wire with another number: replayed, reordered or after a dropped one. -/
theorem rejects_of_ne_counter {i : ℕ} (hi : i ≠ s.recvCounter) {x : Sealing}
    (hx : (sealingsFrom key 0 sent)[i]? = some x) : Rejects impl aead made s (x.frame aead) := by
  rw [getElem?_sealingsFrom, Option.map_eq_some_iff] at hx
  obtain ⟨plaintext', hget', rfl⟩ := hx
  apply rejects_of_not_isPrefix hmade hlength hcount hkey hk
  intro plaintext hget hprefix
  have hnonce := (encrypt_eq_of_isPrefix (length_makeNonce _) (length_makeNonce _)
    (hlength plaintext (List.mem_of_getElem? hget))
    (hlength plaintext' (List.mem_of_getElem? hget')) hprefix).1
  have hlt := (List.getElem?_eq_some_iff.mp hget').1
  rw [Nat.zero_add] at hnonce
  exact hi (makeNonce_injOn (by omega) (by omega) hnonce).symm

/-- A frame under another key, which the reflected ones are. -/
theorem rejects_of_ne_key (hideal : aead.Ideal made) {x : Sealing} (hx : x ∈ made) (hne : x.key ≠ key)
    (hnonce : x.nonce.length = aeadNonceSize) (hplaintext : x.plaintext.length ≤ maxAeadPlaintext) :
    Rejects impl aead made s (x.frame aead) := by
  apply rejects_of_not_isPrefix hmade hlength hcount hkey hk
  intro plaintext hget hprefix
  have hencrypt := (encrypt_eq_of_isPrefix (length_makeNonce _) hnonce
    (hlength plaintext (List.mem_of_getElem? hget)) hplaintext hprefix).2
  have hmem := (mem_made_iff hmade hcount hk).mpr hget
  exact hne (congrArg Sealing.key (hideal _ hmem _ hx hencrypt)).symm

end Rejects

section Channel

/-- Everything that the two ends have encrypted. -/
def channelMade (aead : Aead) (implS implR : Implementation) (keys : DerivedKeys)
    (sent back : List Bytes) : List Sealing :=
  (implS.encryptAll aead sent (.ofKeys keys)).2.made ++
    (implR.encryptAll aead back (.ofKeys keys.swap)).2.made

variable {aead : Aead} {implS implR : Implementation} {keys : DerivedKeys} {sent back : List Bytes}
  (hkeys : keys.sendKey ≠ keys.recvKey)
  (hlength : ∀ plaintext ∈ sent, plaintext.length ≤ maxAeadPlaintext) (hcount : sent.length < 2 ^ 63)

include hlength hcount in
theorem encryptAll_ofKeys : implS.encryptAll aead sent (.ofKeys keys) =
    (.ok ((sealingsFrom keys.sendKey 0 sent).map (Sealing.frame aead)),
      ⟨some keys.sendKey, some keys.recvKey, sent.length, 0, sealingsFrom keys.sendKey 0 sent⟩) := by
  have hkey : (AeadState.ofKeys keys).sendKey = some keys.sendKey := rfl
  rw [encryptAll_eq_ok implS hkey hlength (by simp [AeadState.ofKeys]; omega)]
  simp [AeadState.ofKeys]

/-- The receiver after its own sending. -/
theorem sendsOnly_receiver :
    SendsOnly (.ofKeys keys.swap) (implR.encryptAll aead back (.ofKeys keys.swap)).2 :=
  stays_encryptAll implR (.ofKeys keys.swap)

theorem madeUnder_receiver :
    MadeUnder (some keys.recvKey) (implR.encryptAll aead back (.ofKeys keys.swap)).2.made :=
  sendsOnly_receiver.made fun _ h ↦ absurd h List.not_mem_nil

include hkeys hlength hcount in
theorem madeFor_channelMade :
    MadeFor keys.sendKey sent (channelMade aead implS implR keys sent back) := by
  rw [channelMade, encryptAll_ofKeys hlength hcount]
  constructor
  · intro x hx
    exact List.mem_append_left _ hx
  · intro x hx hkey
    rcases List.mem_append.mp hx with hsent | hback
    · exact hsent
    · have hown := (madeUnder_receiver x hback).1
      rw [hkey] at hown
      exact absurd (Option.some.inj hown) hkeys

end Channel

/-- The receiver returns a prefix of what was sent, and all of it when the frames arrive unchanged.
After any frames that it accepted, it raises on every frame that does not start with the next frame
of the wire, so on every other frame of the wire and on every frame of its own. -/
theorem secure_channel (aead : Aead) (implS implR : Implementation) (keys : DerivedKeys)
    (sent back : List Bytes) (hkeys : keys.sendKey ≠ keys.recvKey)
    (hlength : ∀ plaintext ∈ sent, plaintext.length ≤ maxAeadPlaintext)
    (hcount : sent.length < 2 ^ 63)
    (hideal : aead.Ideal (channelMade aead implS implR keys sent back)) :
    let made := channelMade aead implS implR keys sent back
    let receiver := (implR.encryptAll aead back (.ofKeys keys.swap)).2
    ∃ wire, (implS.encryptAll aead sent (.ofKeys keys)).1 = .ok wire ∧
      (implR.decryptUntilError aead made wire receiver).1 = sent ∧
      ∀ frames, (implR.decryptUntilError aead made frames receiver).1 <+: sent ∧
        ((implR.decryptUntilError aead made frames receiver).1.length = frames.length →
          ∀ frame, let s := (implR.decryptUntilError aead made frames receiver).2
            ((∀ next, wire[frames.length]? = some next → ¬next <+: frame) →
              Rejects implR aead made s frame) ∧
            (∀ i, i ≠ frames.length → wire[i]? = some frame → Rejects implR aead made s frame) ∧
            (∀ x ∈ receiver.made, frame = x.frame aead → Rejects implR aead made s frame)) := by
  intro made receiver
  have hmade : MadeFor keys.sendKey sent made := madeFor_channelMade hkeys hlength hcount
  have hreceiver : SendsOnly (.ofKeys keys.swap) receiver := sendsOnly_receiver
  have hkey : receiver.recvKey = some keys.sendKey := hreceiver.recvKey
  have hzero : receiver.recvCounter = 0 := hreceiver.recvCounter
  have hstart : receiver.recvCounter ≤ sent.length := hzero ▸ Nat.zero_le _
  have hword : sent.length < 2 ^ 64 := hcount.trans (by decide)
  refine ⟨(sealingsFrom keys.sendKey 0 sent).map (Sealing.frame aead), ?_, ?_, ?_⟩
  · rw [encryptAll_ofKeys hlength hcount]
  · have hwire : (implR.decryptUntilError aead made
        ((sealingsFrom keys.sendKey receiver.recvCounter (sent.drop receiver.recvCounter)).map
          (Sealing.frame aead)) receiver).1 = sent.drop receiver.recvCounter :=
      decryptUntilError_wire hmade hlength hword.le implR hkey (List.prefix_refl _)
    rwa [hzero, List.drop_zero] at hwire
  · intro frames
    have hrun : (implR.decryptUntilError aead made frames receiver).1 <+:
        sent.drop receiver.recvCounter ∧ _ :=
      decryptUntilError_isPrefix hmade hlength hword implR frames hkey hstart
    obtain ⟨hread, hstate⟩ := hrun
    rw [hzero, List.drop_zero] at hread
    refine ⟨hread, ?_⟩
    intro hall frame s
    have hs : s = { receiver with recvCounter := receiver.recvCounter + frames.length } := hstate hall
    have hcounter : s.recvCounter = frames.length := by
      rw [hs, hzero, Nat.zero_add]
    have hskey : s.recvKey = some keys.sendKey := by
      rw [hs]
      exact hkey
    have hk : s.recvCounter < 2 ^ 64 := by
      rw [hcounter, ← hall]
      exact hread.length_le.trans_lt hword
    refine ⟨?_, ?_, ?_⟩
    · intro hnext
      apply rejects_of_not_isPrefix hmade hlength hword.le hskey hk
      intro plaintext hget
      rw [hcounter] at hget ⊢
      apply hnext
      rw [List.getElem?_map, getElem?_sealingsFrom, hget, Nat.zero_add]
      rfl
    · intro i hi hget
      rw [List.getElem?_map, Option.map_eq_some_iff] at hget
      obtain ⟨x, hx, rfl⟩ := hget
      exact rejects_of_ne_counter hmade hlength hword.le hskey hk (hcounter.symm ▸ hi) hx
    · rintro x hx rfl
      obtain ⟨hown, hnonce, hplaintext⟩ := madeUnder_receiver x hx
      have hne : x.key ≠ keys.sendKey := by
        intro h
        rw [Option.some.inj hown] at h
        exact hkeys h.symm
      exact rejects_of_ne_key hmade hlength hword.le hskey hk hideal (List.mem_append_right _ hx) hne
        hnonce hplaintext

/-- A session with ChaCha20-Poly1305 in which both ends have sent. -/
theorem secure_channel_sample :
    let keys : DerivedKeys := ⟨List.replicate 32 1, List.replicate 32 2, [3]⟩
    let made := channelMade ChaCha20Poly1305.aead .linux .android keys [[1, 2], []] [[1, 2]]
    let receiver := (Implementation.android.encryptAll ChaCha20Poly1305.aead [[1, 2]]
      (.ofKeys keys.swap)).2
    ∃ wire, (Implementation.linux.encryptAll ChaCha20Poly1305.aead [[1, 2], []] (.ofKeys keys)).1 =
        .ok wire ∧
      (Implementation.android.decryptUntilError ChaCha20Poly1305.aead made wire receiver).1 =
        [[1, 2], []] ∧
      ∀ frames,
        (Implementation.android.decryptUntilError ChaCha20Poly1305.aead made frames receiver).1 <+:
          [[1, 2], []] ∧
        ((Implementation.android.decryptUntilError ChaCha20Poly1305.aead made frames
            receiver).1.length = frames.length →
          ∀ frame, let s := (Implementation.android.decryptUntilError ChaCha20Poly1305.aead made frames
              receiver).2
            ((∀ next, wire[frames.length]? = some next → ¬next <+: frame) →
              Rejects .android ChaCha20Poly1305.aead made s frame) ∧
            (∀ i, i ≠ frames.length → wire[i]? = some frame →
              Rejects .android ChaCha20Poly1305.aead made s frame) ∧
            (∀ x ∈ receiver.made, frame = x.frame ChaCha20Poly1305.aead →
              Rejects .android ChaCha20Poly1305.aead made s frame)) :=
  secure_channel ChaCha20Poly1305.aead .linux .android ⟨List.replicate 32 1, List.replicate 32 2, [3]⟩
    [[1, 2], []] [[1, 2]] (by decide) (by decide) (by decide) (by decide +kernel)

end Ferry
