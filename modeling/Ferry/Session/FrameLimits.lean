import Ferry.Session.WireOrder
import Ferry.Android.ChunkCodec

/-!
# The sizes of frames

Both senders bound the plaintext of a frame.  The reader of the service bounds nothing, and the reader
of the client bounds the ciphertext, which is 16 bytes longer than the plaintext, by the same number.
The 16 largest plaintexts are therefore sent by both ends and refused by the client.
-/

namespace Ferry

open Exec

/-! ## The reader of the client -/

namespace Kotlin

def maxFrame : ℤ := 1048576

/-- What `readAeadFrameBytes` throws. -/
inductive ReadError
  | headerClosed
  | ctLenRange (ctLen : ℤ)
  | payloadClosed
  deriving DecidableEq

/-- The Kotlin `readAeadFrameBytes`: the next frame of a stream and the rest, or `null` at its end. -/
def readAeadFrameBytes (stream : Bytes) : Except ReadError (Option (Bytes × Bytes)) := do
  let header := stream.take 4
  if header = [] then
    return none
  rejectIf (header.length ≠ 4) .headerClosed
  let ctLen := getInt header
  rejectIf (ctLen < 0 ∨ maxFrame < ctLen) (.ctLenRange ctLen)
  let rest := (stream.drop 4).take (12 + ctLen).toNat
  rejectIf ((rest.length : ℤ) ≠ 12 + ctLen) .payloadClosed
  return some (header ++ rest, (stream.drop 4).drop (12 + ctLen).toNat)

end Kotlin

/-- The next frame that an implementation reads from a stream, and the rest. -/
def Implementation.readFrame : Implementation → Bytes → Option (Bytes × Bytes)
  | linux, stream => readAeadFrameBytes stream
  | android, stream =>
    match Kotlin.readAeadFrameBytes stream with
    | .ok next => next
    | .error _ => none

theorem readFrame_android_eq_some {stream : Bytes} {next : Bytes × Bytes} :
    Implementation.android.readFrame stream = some next ↔
      Kotlin.readAeadFrameBytes stream = .ok (some next) := by
  rw [Implementation.readFrame]
  cases Kotlin.readAeadFrameBytes stream with
  | error e => simp only [reduceCtorEq]
  | ok read => exact ⟨congrArg Except.ok, Except.ok.inj⟩

theorem readFrame_android_of_error {stream : Bytes} {e : Kotlin.ReadError}
    (h : Kotlin.readAeadFrameBytes stream = .error e) :
    Implementation.android.readFrame stream = none := by
  rw [Implementation.readFrame, h]

/-! ## Reading a frame of a sender -/

section Layout

variable {nonce ciphertext : Bytes} (hnonce : nonce.length = aeadNonceSize)
  (hlength : ciphertext.length < 2 ^ 31) (rest : Bytes)

include hlength in
theorem getInt_header :
    Kotlin.getInt ((layoutFrame nonce ciphertext ++ rest).take 4) = ciphertext.length := by
  rw [Kotlin.getInt, header_layoutFrame (by omega), toInt32_of_lt hlength]

include hlength in
/-- The client refuses a frame by its header. -/
theorem readAeadFrameBytes_tooLong (hlimit : Kotlin.maxFrame < ciphertext.length) :
    Kotlin.readAeadFrameBytes (layoutFrame nonce ciphertext ++ rest) =
      .error (.ctLenRange ciphertext.length) := by
  have hctLen := @getInt_header nonce ciphertext hlength rest
  have hheader : ((layoutFrame nonce ciphertext ++ rest).take 4).length = 4 := by
    rw [List.length_take, List.length_append, length_layoutFrame, aeadHeaderSize]
    omega
  have hne : (layoutFrame nonce ciphertext ++ rest).take 4 ≠ [] :=
    List.ne_nil_of_length_pos (by omega)
  unfold Kotlin.readAeadFrameBytes
  simp only [if_neg hne, hctLen, hheader]
  simp [rejectIf, hlimit, bind, Except.bind]

include hnonce hlength in
/-- The client reads a frame when its ciphertext is within its limit. -/
theorem readAeadFrameBytes_layoutFrame (hlimit : (ciphertext.length : ℤ) ≤ Kotlin.maxFrame) :
    Kotlin.readAeadFrameBytes (layoutFrame nonce ciphertext ++ rest) =
      .ok (some (layoutFrame nonce ciphertext, rest)) := by
  set frame := layoutFrame nonce ciphertext with hframe
  have hsize : frame.length = 4 + (12 + ciphertext.length) := by
    rw [hframe, length_layoutFrame, hnonce, aeadHeaderSize, aeadNonceSize, Nat.add_assoc]
  have hheader : (frame ++ rest).take 4 = frame.take 4 :=
    List.take_append_of_le_length (by omega)
  have hheaderLength : (frame.take 4).length = 4 := by
    rw [List.length_take, hsize]
    omega
  have hne : frame.take 4 ≠ [] := List.ne_nil_of_length_pos (by omega)
  have hctLen : Kotlin.getInt (frame.take 4) = ciphertext.length := by
    rw [← hheader]
    exact getInt_header hlength rest
  have hdrop : (frame ++ rest).drop 4 = frame.drop 4 ++ rest :=
    List.drop_append_of_le_length (by omega)
  have hrest : (frame.drop 4).length = (12 + (ciphertext.length : ℤ)).toNat := by
    rw [List.length_drop, hsize]
    omega
  unfold Kotlin.readAeadFrameBytes
  simp only [hheader, if_neg hne, hctLen, hdrop, List.take_left' hrest, List.drop_left' hrest,
    List.take_append_drop, bind_eq_ok, rejectIf_eq_ok, not_or, not_lt]
  exact ⟨(), by omega, (), ⟨by omega, hlimit⟩, (), by omega, rfl⟩

include hnonce hlength in
theorem readFrame_iff (impl : Implementation) :
    impl.readFrame (layoutFrame nonce ciphertext ++ rest) =
        some (layoutFrame nonce ciphertext, rest) ↔
      impl = .linux ∨ (ciphertext.length : ℤ) ≤ Kotlin.maxFrame := by
  cases impl with
  | linux =>
    have hread : Implementation.linux.readFrame (layoutFrame nonce ciphertext ++ rest) =
        some (layoutFrame nonce ciphertext, rest) :=
      readAeadFrameBytes_append hnonce (by omega) rest
    simp [hread]
  | android =>
    rw [readFrame_android_eq_some]
    by_cases hlimit : (ciphertext.length : ℤ) ≤ Kotlin.maxFrame
    · simp [readAeadFrameBytes_layoutFrame hnonce hlength rest hlimit, hlimit]
    · simp [readAeadFrameBytes_tooLong hlength rest (not_le.mp hlimit), hlimit]

end Layout

/-! ## What is sent and what is received -/

/-- Whether an implementation receives a plaintext that has been sent. -/
def Implementation.Receives (impl : Implementation) (plaintext : Bytes) : Prop :=
  impl = .linux ∨ plaintext.length ≤ 1048560

instance (impl : Implementation) (plaintext : Bytes) : Decidable (impl.Receives plaintext) :=
  inferInstanceAs (Decidable (_ ∨ _))

/-- What a call of `encryptFrame` that returns has done, in both implementations. -/
theorem Implementation.encryptFrame_returned {aead : Aead} {impl : Implementation}
    {plaintext frame : Bytes} {sender sender' : AeadState}
    (h : impl.encryptFrame aead plaintext sender = (.ok frame, sender')) :
    ∃ key, sender.sendKey = some key ∧ plaintext.length ≤ maxAeadPlaintext ∧
      frame = (⟨key, makeNonce sender.sendCounter, plaintext⟩ : Sealing).frame aead ∧
      ⟨key, makeNonce sender.sendCounter, plaintext⟩ ∈ sender'.made := by
  cases impl with
  | linux =>
    obtain ⟨key, hkey, hlength, -, hframe, hsender⟩ := SessionWriter.encryptFrame_returned h
    refine ⟨key, hkey, hlength, hframe, ?_⟩
    rw [hsender]
    exact List.mem_append_right _ (List.mem_singleton_self _)
  | android =>
    unfold Implementation.encryptFrame AndroidFerrySession.encryptFrame at h
    simp only [get_bind_run, ofResult_bind_run_eq_ok, raiseIf_bind_run_eq_ok, modify_bind_run,
      require_eq_ok, not_lt] at h
    obtain ⟨hlength, key, hkey, hrun⟩ := h
    injection hrun with hframe hsender
    refine ⟨key, hkey, hlength, (Except.ok.inj hframe).symm, ?_⟩
    rw [← hsender]
    exact List.mem_append_right _ (List.mem_singleton_self _)

/-- What is sent is read whole and decrypted by the receiver if and only if the receiver is the service
or the plaintext leaves room for the tag. -/
theorem frame_received_iff (aead : Aead) (implS implR : Implementation) (plaintext frame rest : Bytes)
    (other : List Sealing) (sender sender' receiver : AeadState)
    (hsend : implS.encryptFrame aead plaintext sender = (.ok frame, sender'))
    (hkey : receiver.recvKey = sender.sendKey) (hcounter : receiver.recvCounter = sender.sendCounter)
    (hword : sender.sendCounter < 2 ^ 64) :
    (implR.readFrame (frame ++ rest) = some (frame, rest) ∧
        implR.decryptFrame aead (sender'.made ++ other) frame receiver =
          (.ok plaintext, { receiver with recvCounter := receiver.recvCounter + 1 })) ↔
      implR.Receives plaintext := by
  obtain ⟨key, hsendKey, hlength, rfl, hmade⟩ := Implementation.encryptFrame_returned hsend
  rw [← hcounter] at hmade hword ⊢
  have hciphertext := aead.length_encrypt key (makeNonce receiver.recvCounter) plaintext
  have hsize : (aead.encrypt key (makeNonce receiver.recvCounter) plaintext).length < 2 ^ 31 := by
    rw [maxAeadPlaintext] at hlength
    omega
  set frame := (⟨key, makeNonce receiver.recvCounter, plaintext⟩ : Sealing).frame aead with hframe
  have haccepts : Accepts implR aead (sender'.made ++ other) frame plaintext receiver key := by
    rw [← List.append_nil frame]
    exact accepts_of_mem implR (hkey.trans hsendKey) hlength (List.mem_append_left other hmade)
  have hdecrypts := (decryptFrame_eq_ok_iff implR hword).mpr ⟨⟨key, haccepts⟩, rfl⟩
  have hread := readFrame_iff (length_makeNonce receiver.recvCounter) hsize rest implR
  calc
    _ ↔ implR.readFrame (frame ++ rest) = some (frame, rest) := and_iff_left hdecrypts
    _ ↔ _ := hread
    _ ↔ implR.Receives plaintext := by
      rw [hciphertext, Implementation.Receives, Kotlin.maxFrame]
      exact or_congr Iff.rfl (by omega)

/-- A message of the service to the client at the limit of what is received. -/
theorem frame_received_sample :
    ∃ frame sender', Implementation.linux.encryptFrame ChaCha20Poly1305.aead
        (List.replicate 1048560 0x20) (.ofKeys sampleKeys) = (.ok frame, sender') ∧
      ((Implementation.android.readFrame (frame ++ [0x46]) = some (frame, [0x46]) ∧
          Implementation.android.decryptFrame ChaCha20Poly1305.aead (sender'.made ++ []) frame
              (.ofKeys sampleKeys.swap) =
            (.ok (List.replicate 1048560 0x20),
              { AeadState.ofKeys sampleKeys.swap with recvCounter := 1 })) ↔
        Implementation.android.Receives (List.replicate 1048560 0x20)) := by
  have hlength : (List.replicate 1048560 (0x20 : UInt8)).length ≤ maxAeadPlaintext := by
    rw [List.length_replicate]
    decide
  have hsend : Implementation.linux.encryptFrame ChaCha20Poly1305.aead (List.replicate 1048560 0x20)
      (.ofKeys sampleKeys) = _ := encryptFrame_eq_ok .linux rfl hlength (by decide)
  refine ⟨_, _, hsend, ?_⟩
  exact frame_received_iff ChaCha20Poly1305.aead .linux .android (List.replicate 1048560 0x20) _ [0x46] []
    (.ofKeys sampleKeys) _ (.ofKeys sampleKeys.swap) hsend rfl rfl (by decide)

/-- A message of the service with one byte more, which the client refuses by its header. -/
theorem frame_too_long_for_client :
    ∃ frame sender', Implementation.linux.encryptFrame ChaCha20Poly1305.aead
        (List.replicate 1048561 0x20) (.ofKeys sampleKeys) = (.ok frame, sender') ∧
      Kotlin.readAeadFrameBytes frame = .error (.ctLenRange 1048577) ∧
      Implementation.android.readFrame frame = none := by
  have hlength : (List.replicate 1048561 (0x20 : UInt8)).length ≤ maxAeadPlaintext := by
    rw [List.length_replicate]
    decide
  have hsend : Implementation.linux.encryptFrame ChaCha20Poly1305.aead (List.replicate 1048561 0x20)
      (.ofKeys sampleKeys) = _ := encryptFrame_eq_ok .linux rfl hlength (by decide)
  have hciphertext : (ChaCha20Poly1305.aead.encrypt sampleKeys.sendKey (makeNonce 0)
      (List.replicate 1048561 0x20)).length = 1048577 := by
    rw [Aead.length_encrypt, List.length_replicate]
  have hlimit : Kotlin.maxFrame < (ChaCha20Poly1305.aead.encrypt sampleKeys.sendKey (makeNonce 0)
      (List.replicate 1048561 0x20)).length := by
    rw [hciphertext]
    decide
  have hread := @readAeadFrameBytes_tooLong (makeNonce 0) _ (by rw [hciphertext]; decide) [] hlimit
  rw [List.append_nil, hciphertext] at hread
  exact ⟨_, _, hsend, hread, readFrame_android_of_error hread⟩

end Ferry
