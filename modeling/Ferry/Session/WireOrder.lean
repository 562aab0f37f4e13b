import Ferry.Session.SecureChannel
import Ferry.Session.State
import Mathlib.Logic.Relation

/-!
# Frames are written in the order of their counters

The tasks of the service share one session.  A task runs until its next `await`, and only there may
another task run.  Encrypting a frame and writing it are two statements with no `await` between
them, so whatever the interleaving, the stream of the writer holds the frames with the counters
`0, 1, 2, …` and the peer accepts all of them.
-/

namespace Ferry

/-! ## Tasks -/

/-- A statement of a task, as far as it touches the session and its writer. -/
inductive Stmt
  | requireSendable
  | breakIfCancelled
  | encrypt (plaintext : Bytes)
  | write
  | await
  deriving DecidableEq

/-- `send_encrypted`, for an envelope with this encoding. -/
def sendEncrypted (plaintext : Bytes) : List Stmt :=
  [.requireSendable, .encrypt plaintext, .write, .await]

/-- One round of the streaming loop of `send_file`, after the next chunk frame has come. -/
def streamChunk (chunkFrame : Bytes) : List Stmt :=
  [.breakIfCancelled, .encrypt chunkFrame, .write, .await]

/-- The streaming loop: `async for` awaits each chunk frame and the end of the stream. -/
def streamChunks (chunkFrames : List Bytes) : List Stmt :=
  chunkFrames.flatMap (fun chunkFrame ↦ .await :: streamChunk chunkFrame) ++ [.await]

/-- `send_file`: the request, the wait for the answer, the chunks, and the wait for the result. -/
def sendFile (request : Bytes) (chunkFrames : List Bytes) (complete : Bytes) : List Stmt :=
  sendEncrypted request ++ .await :: streamChunks chunkFrames ++ sendEncrypted complete ++ [.await]

/-- The bodies of tasks: any sequence of calls of `send_encrypted`, rounds of the streaming loop and
other awaits. -/
inductive Body : List Stmt → Prop
  | nil : Body []
  | send (plaintext : Bytes) {rest : List Stmt} (h : Body rest) :
      Body (.requireSendable :: .encrypt plaintext :: .write :: .await :: rest)
  | chunk (chunkFrame : Bytes) {rest : List Stmt} (h : Body rest) :
      Body (.breakIfCancelled :: .encrypt chunkFrame :: .write :: .await :: rest)
  | await {rest : List Stmt} (h : Body rest) : Body (.await :: rest)

theorem body_streamChunks (chunkFrames : List Bytes) {rest : List Stmt} (h : Body rest) :
    Body (streamChunks chunkFrames ++ rest) := by
  induction chunkFrames with
  | nil => exact .await h
  | cons chunkFrame chunkFrames ih => exact .await (.chunk chunkFrame ih)

theorem body_sendFile (request : Bytes) (chunkFrames : List Bytes) (complete : Bytes) :
    Body (sendFile request chunkFrames complete) := by
  have hcomplete : Body (sendEncrypted complete ++ [.await]) := .send complete (.await .nil)
  have hstream := body_streamChunks chunkFrames hcomplete
  have hsend : Body (sendEncrypted request ++ .await :: (streamChunks chunkFrames ++
    (sendEncrypted complete ++ [.await]))) := .send request (.await hstream)
  simpa [sendFile] using hsend

/-! ## Interleaving -/

/-- The task that runs: its local `frame` and the statements left. -/
structure RunningTask where
  frame : Option Bytes
  code : List Stmt

/-- A session, its writer and the tasks that use it.  A writer that lost its connection drops what
is written. -/
structure SessionWriter where
  state : SessionState
  session : AeadState
  written : List Bytes
  lost : Bool
  waiting : List (List Stmt)
  running : Option RunningTask

/-- A session with fresh keys and no task. -/
def SessionWriter.start (keys : DerivedKeys) : SessionWriter where
  state := .authenticating
  session := .ofKeys keys
  written := []
  lost := false
  waiting := []
  running := none

/-- One step.  After an exception or a `break` a task goes on with any body, which covers every
handler. -/
inductive SessionWriter.Step (aead : Aead) : SessionWriter → SessionWriter → Prop
  | spawn {w : SessionWriter} {code : List Stmt} (hcode : Body code) :
      Step aead w { w with waiting := w.waiting ++ [code] }
  | resume {w : SessionWriter} {before after : List (List Stmt)} {code : List Stmt}
      (hrunning : w.running = none) (hwaiting : w.waiting = before ++ code :: after) :
      Step aead w { w with waiting := before ++ after, running := some ⟨none, code⟩ }
  | finish {w : SessionWriter} {frame : Option Bytes} (hrunning : w.running = some ⟨frame, []⟩) :
      Step aead w { w with running := none }
  | await {w : SessionWriter} {frame : Option Bytes} {rest : List Stmt}
      (hrunning : w.running = some ⟨frame, .await :: rest⟩) :
      Step aead w { w with waiting := w.waiting ++ [rest], running := none }
  | awaitRaises {w : SessionWriter} {frame : Option Bytes} {rest handler : List Stmt}
      (hrunning : w.running = some ⟨frame, .await :: rest⟩) (hhandler : Body handler) :
      Step aead w { w with waiting := w.waiting ++ [handler], running := none }
  | sendable {w : SessionWriter} {frame : Option Bytes} {rest : List Stmt}
      (hrunning : w.running = some ⟨frame, .requireSendable :: rest⟩)
      (hstate : w.state ∉ SessionState.refusesToSend) :
      Step aead w { w with running := some ⟨frame, rest⟩ }
  | notSendable {w : SessionWriter} {frame : Option Bytes} {rest handler : List Stmt}
      (hrunning : w.running = some ⟨frame, .requireSendable :: rest⟩)
      (hstate : w.state ∈ SessionState.refusesToSend) (hhandler : Body handler) :
      Step aead w { w with running := some ⟨none, handler⟩ }
  | notCancelled {w : SessionWriter} {frame : Option Bytes} {rest : List Stmt}
      (hrunning : w.running = some ⟨frame, .breakIfCancelled :: rest⟩) :
      Step aead w { w with running := some ⟨frame, rest⟩ }
  | cancelled {w : SessionWriter} {frame : Option Bytes} {rest handler : List Stmt}
      (hrunning : w.running = some ⟨frame, .breakIfCancelled :: rest⟩) (hhandler : Body handler) :
      Step aead w { w with running := some ⟨none, handler⟩ }
  | encrypt {w : SessionWriter} {old : Option Bytes} {plaintext frame : Bytes} {rest : List Stmt}
      {session : AeadState} (hrunning : w.running = some ⟨old, .encrypt plaintext :: rest⟩)
      (hencrypt : FerrySession.encryptFrame aead plaintext w.session = (.ok frame, session)) :
      Step aead w { w with session := session, running := some ⟨some frame, rest⟩ }
  | encryptRaises {w : SessionWriter} {old : Option Bytes} {plaintext : Bytes}
      {rest handler : List Stmt} {session : AeadState} {e : ChannelError}
      (hrunning : w.running = some ⟨old, .encrypt plaintext :: rest⟩)
      (hencrypt : FerrySession.encryptFrame aead plaintext w.session = (.error e, session))
      (hhandler : Body handler) :
      Step aead w { w with session := session, running := some ⟨none, handler⟩ }
  | write {w : SessionWriter} {frame : Bytes} {rest : List Stmt}
      (hrunning : w.running = some ⟨some frame, .write :: rest⟩) :
      Step aead w { w with
        written := if w.lost then w.written else w.written ++ [frame]
        running := some ⟨some frame, rest⟩ }
  | transition {w : SessionWriter} (state : SessionState) : Step aead w { w with state := state }
  | receive {w : SessionWriter} (counter : ℕ) :
      Step aead w { w with session.recvCounter := counter }
  | connectionLost {w : SessionWriter} : Step aead w { w with lost := true }

def SessionWriter.Reachable (aead : Aead) : SessionWriter → SessionWriter → Prop :=
  Relation.ReflTransGen (SessionWriter.Step aead)

/-! ## The invariant -/

namespace SessionWriter

/-- Where the running task is, and the frame that it has encrypted and not yet written. -/
inductive At : Option RunningTask → List Bytes → Prop
  | none : At none []
  | body {frame : Option Bytes} {code : List Stmt} (h : Body code) : At (some ⟨frame, code⟩) []
  | encrypt {frame : Option Bytes} {plaintext : Bytes} {rest : List Stmt} (h : Body rest) :
      At (some ⟨frame, .encrypt plaintext :: .write :: .await :: rest⟩) []
  | write {frame : Bytes} {rest : List Stmt} (h : Body rest) :
      At (some ⟨some frame, .write :: .await :: rest⟩) [frame]

/-- The session has encrypted `sent`, and what the writer holds are these frames in order, up to
those not yet written or dropped. -/
structure InOrder (aead : Aead) (key : Bytes) (session : AeadState) (written : List Bytes) (lost : Bool)
    (sent pending : List Bytes) : Prop where
  sendKey : session.sendKey = some key
  made : session.made = sealingsFrom key 0 sent
  sendCounter : session.sendCounter = sent.length
  length_le : ∀ plaintext ∈ sent, plaintext.length ≤ maxAeadPlaintext
  count_le : sent.length ≤ 2 ^ 64
  isPrefix : written <+: (sealingsFrom key 0 sent).map (Sealing.frame aead)
  complete : lost = false → written ++ pending = (sealingsFrom key 0 sent).map (Sealing.frame aead)

/-- What holds after every step. -/
structure Inv (aead : Aead) (key : Bytes) (w : SessionWriter) : Prop where
  bodies : ∀ code ∈ w.waiting, Body code
  inOrder : ∃ sent pending, At w.running pending ∧
    InOrder aead key w.session w.written w.lost sent pending

section Encrypt

open Exec

variable {aead : Aead} {plaintext frame : Bytes} {session session' : AeadState}

/-- What a call of `encrypt_frame` that returns has done. -/
theorem encryptFrame_returned
    (h : FerrySession.encryptFrame aead plaintext session = (.ok frame, session')) :
    ∃ key, session.sendKey = some key ∧ plaintext.length ≤ maxAeadPlaintext ∧
      session.sendCounter < 2 ^ 64 ∧
      frame = (⟨key, makeNonce session.sendCounter, plaintext⟩ : Sealing).frame aead ∧
      session' = { session with
        sendCounter := session.sendCounter + 1
        made := session.made ++ [⟨key, makeNonce session.sendCounter, plaintext⟩] } := by
  unfold FerrySession.encryptFrame at h
  simp only [get_bind_run, ofResult_bind_run_eq_ok, raiseIf_bind_run_eq_ok, modify_bind_run,
    require_eq_ok, not_lt, not_le] at h
  obtain ⟨key, hkey, hlength, hcounter, hrun⟩ := h
  injection hrun with hframe hsession
  exact ⟨key, hkey, hlength, hcounter, (Except.ok.inj hframe).symm, hsession.symm⟩

/-- A call of `encrypt_frame` that raises has done nothing. -/
theorem encryptFrame_raised {e : ChannelError}
    (h : FerrySession.encryptFrame aead plaintext session = (.error e, session')) :
    session' = session := by
  have hwp : wp (FerrySession.encryptFrame aead plaintext)
      (fun r t ↦ ∀ e, r = .error e → t = session) session := by
    unfold FerrySession.encryptFrame
    simp only [wp_get_bind, wp_ofResult_bind, wp_raiseIf_bind, wp_modify_bind, wp_pure]
    simp
  rw [wp, h] at hwp
  exact hwp e rfl

end Encrypt

section Steps

variable {aead : Aead} {key : Bytes} {w w' : SessionWriter}

theorem sealingsFrom_concat (key : Bytes) (counter : ℕ) (sent : List Bytes) (plaintext : Bytes) :
    sealingsFrom key counter (sent ++ [plaintext]) =
      sealingsFrom key counter sent ++ [⟨key, makeNonce (counter + sent.length), plaintext⟩] := by
  induction sent generalizing counter with
  | nil => rfl
  | cons first sent ih =>
    simp [sealingsFrom, ih, Nat.add_assoc, Nat.add_comm 1]

/-- Encrypting appends the next frame of the order. -/
theorem InOrder.encrypted {session' : AeadState} {written sent : List Bytes} {lost : Bool}
    {plaintext frame : Bytes} {session : AeadState}
    (h : InOrder aead key session written lost sent [])
    (hrun : FerrySession.encryptFrame aead plaintext session = (.ok frame, session')) :
    InOrder aead key session' written lost (sent ++ [plaintext]) [frame] := by
  obtain ⟨key', hkey, hlength, hcounter, hframe, hsession⟩ := encryptFrame_returned hrun
  have hsame : key' = key := Option.some.inj (hkey.symm.trans h.sendKey)
  subst hsame
  have hframes : (sealingsFrom key' 0 (sent ++ [plaintext])).map (Sealing.frame aead) =
      (sealingsFrom key' 0 sent).map (Sealing.frame aead) ++ [frame] := by
    rw [sealingsFrom_concat, List.map_append, hframe, h.sendCounter, Nat.zero_add]
    rfl
  constructor
  · rw [hsession]
    exact h.sendKey
  · rw [hsession, sealingsFrom_concat, ← h.made, h.sendCounter, Nat.zero_add]
  · rw [hsession, List.length_append, List.length_singleton, ← h.sendCounter]
  · intro p hp
    rcases List.mem_append.mp hp with hold | hlast
    · exact h.length_le p hold
    · rw [List.mem_singleton.mp hlast]
      exact hlength
  · rw [List.length_append, List.length_singleton, ← h.sendCounter]
    exact hcounter
  · rw [hframes]
    exact h.isPrefix.trans (List.prefix_append _ _)
  · intro hlost
    have hcomplete := h.complete hlost
    rw [List.append_nil] at hcomplete
    rw [hframes, hcomplete]

/-- Writing the pending frame leaves nothing pending. -/
theorem InOrder.wrote {session : AeadState} {written sent : List Bytes} {lost : Bool} {frame : Bytes}
    (h : InOrder aead key session written lost sent [frame]) :
    InOrder aead key session (if lost then written else written ++ [frame]) lost sent [] := by
  refine ⟨h.sendKey, h.made, h.sendCounter, h.length_le, h.count_le, ?_, ?_⟩
  · cases lost with
    | true => exact h.isPrefix
    | false =>
      rw [if_neg Bool.false_ne_true, h.complete rfl]
  · intro hlost
    rw [hlost, if_neg Bool.false_ne_true, List.append_nil]
    exact h.complete hlost

theorem InOrder.lose {session : AeadState} {written sent pending : List Bytes} {lost : Bool}
    (h : InOrder aead key session written lost sent pending) :
    InOrder aead key session written true sent pending :=
  ⟨h.sendKey, h.made, h.sendCounter, h.length_le, h.count_le, h.isPrefix, fun hlost ↦ by simp at hlost⟩

theorem InOrder.receive {session : AeadState} {written sent pending : List Bytes} {lost : Bool}
    (h : InOrder aead key session written lost sent pending) (counter : ℕ) :
    InOrder aead key { session with recvCounter := counter } written lost sent pending :=
  ⟨h.sendKey, h.made, h.sendCounter, h.length_le, h.count_le, h.isPrefix, h.complete⟩

/-! ### Where the running task goes -/

section Places

variable {frame : Option Bytes} {rest : List Stmt} {pending : List Bytes}

theorem At.finish (h : At (some ⟨frame, []⟩) pending) : pending = [] := by
  cases h
  rfl

theorem At.await (h : At (some ⟨frame, .await :: rest⟩) pending) : pending = [] ∧ Body rest := by
  cases h with
  | body hbody =>
    cases hbody with
    | await hrest => exact ⟨rfl, hrest⟩

theorem At.sendable (h : At (some ⟨frame, .requireSendable :: rest⟩) pending) :
    pending = [] ∧ At (some ⟨frame, rest⟩) [] := by
  cases h with
  | body hbody =>
    cases hbody with
    | send plaintext hrest => exact ⟨rfl, .encrypt hrest⟩

theorem At.notCancelled (h : At (some ⟨frame, .breakIfCancelled :: rest⟩) pending) :
    pending = [] ∧ At (some ⟨frame, rest⟩) [] := by
  cases h with
  | body hbody =>
    cases hbody with
    | chunk chunkFrame hrest => exact ⟨rfl, .encrypt hrest⟩

theorem At.encrypted {plaintext : Bytes} (h : At (some ⟨frame, .encrypt plaintext :: rest⟩) pending)
    (new : Bytes) : pending = [] ∧ At (some ⟨some new, rest⟩) [new] := by
  cases h with
  | body hbody => cases hbody
  | encrypt hrest => exact ⟨rfl, .write hrest⟩

theorem At.wrote {new : Bytes} (h : At (some ⟨some new, .write :: rest⟩) pending) :
    pending = [new] ∧ At (some ⟨some new, rest⟩) [] := by
  cases h with
  | body hbody => cases hbody
  | write hrest => exact ⟨rfl, .body (.await hrest)⟩

end Places

theorem inv_start (aead : Aead) (keys : DerivedKeys) :
    Inv aead keys.sendKey (SessionWriter.start keys) := by
  refine ⟨fun code h ↦ absurd h List.not_mem_nil, [], [], .none, ?_⟩
  exact ⟨rfl, rfl, rfl, fun _ h ↦ absurd h List.not_mem_nil, Nat.zero_le _, List.prefix_refl _,
    fun _ ↦ rfl⟩

theorem inv_step (h : Inv aead key w) (hstep : Step aead w w') : Inv aead key w' := by
  obtain ⟨hbodies, sent, pending, hat, horder⟩ := h
  have hconcat : ∀ {code : List Stmt}, Body code → ∀ c ∈ w.waiting ++ [code], Body c := by
    intro code hcode c hc
    rcases List.mem_append.mp hc with hold | hlast
    · exact hbodies c hold
    · exact List.mem_singleton.mp hlast ▸ hcode
  cases hstep with
  | spawn hcode => exact ⟨hconcat hcode, sent, pending, hat, horder⟩
  | @resume before after code hrunning hwaiting =>
    rw [hrunning] at hat
    cases hat
    have hcode : Body code := hbodies code (by simp [hwaiting])
    refine ⟨?_, sent, [], .body hcode, horder⟩
    intro c hc
    apply hbodies
    rw [hwaiting]
    rcases List.mem_append.mp hc with hbefore | hafter
    · exact List.mem_append_left _ hbefore
    · exact List.mem_append_right _ (List.mem_cons_of_mem _ hafter)
  | finish hrunning =>
    rw [hrunning] at hat
    have hnil := hat.finish
    subst hnil
    exact ⟨hbodies, sent, [], .none, horder⟩
  | await hrunning =>
    rw [hrunning] at hat
    obtain ⟨rfl, hrest⟩ := hat.await
    exact ⟨hconcat hrest, sent, [], .none, horder⟩
  | awaitRaises hrunning hhandler =>
    rw [hrunning] at hat
    obtain ⟨rfl, -⟩ := hat.await
    exact ⟨hconcat hhandler, sent, [], .none, horder⟩
  | sendable hrunning _ =>
    rw [hrunning] at hat
    obtain ⟨rfl, hnext⟩ := hat.sendable
    exact ⟨hbodies, sent, [], hnext, horder⟩
  | notSendable hrunning _ hhandler =>
    rw [hrunning] at hat
    obtain ⟨rfl, -⟩ := hat.sendable
    exact ⟨hbodies, sent, [], .body hhandler, horder⟩
  | notCancelled hrunning =>
    rw [hrunning] at hat
    obtain ⟨rfl, hnext⟩ := hat.notCancelled
    exact ⟨hbodies, sent, [], hnext, horder⟩
  | cancelled hrunning hhandler =>
    rw [hrunning] at hat
    obtain ⟨rfl, -⟩ := hat.notCancelled
    exact ⟨hbodies, sent, [], .body hhandler, horder⟩
  | @encrypt _ plaintext frame _ _ hrunning hencrypt =>
    rw [hrunning] at hat
    obtain ⟨rfl, hnext⟩ := hat.encrypted frame
    exact ⟨hbodies, sent ++ [plaintext], [frame], hnext, horder.encrypted hencrypt⟩
  | encryptRaises hrunning hencrypt hhandler =>
    rw [hrunning] at hat
    obtain ⟨rfl, -⟩ := hat.encrypted []
    rw [encryptFrame_raised hencrypt]
    exact ⟨hbodies, sent, [], .body hhandler, horder⟩
  | write hrunning =>
    rw [hrunning] at hat
    obtain ⟨rfl, hnext⟩ := hat.wrote
    exact ⟨hbodies, sent, [], hnext, horder.wrote⟩
  | transition state => exact ⟨hbodies, sent, pending, hat, horder⟩
  | receive counter => exact ⟨hbodies, sent, pending, hat, horder.receive counter⟩
  | connectionLost => exact ⟨hbodies, sent, pending, hat, horder.lose⟩

theorem inv_reachable (h : Inv aead key w) (hrun : Reachable aead w w') : Inv aead key w' := by
  induction hrun with
  | refl => exact h
  | tail _ hstep ih => exact inv_step ih hstep

end Steps

end SessionWriter

/-! ## Reading the stream -/

/-- `_read_aead_frame_bytes`: the next frame of a stream, and the rest. -/
def readAeadFrameBytes (stream : Bytes) : Option (Bytes × Bytes) :=
  let total := aeadHeaderSize + aeadNonceSize + ofBigEndian (stream.take aeadHeaderSize)
  if stream.length < aeadHeaderSize ∨ stream.length < total then none
  else some (stream.take total, stream.drop total)

/-- Read frames until the stream has no whole frame left, at most `fuel` of them. -/
def readFrames : ℕ → Bytes → List Bytes
  | 0, _ => []
  | fuel + 1, stream =>
    match readAeadFrameBytes stream with
    | none => []
    | some (frame, rest) => frame :: readFrames fuel rest

theorem readAeadFrameBytes_append {nonce ciphertext : Bytes} (hnonce : nonce.length = aeadNonceSize)
    (hlength : ciphertext.length < 2 ^ 32) (rest : Bytes) :
    readAeadFrameBytes (layoutFrame nonce ciphertext ++ rest) =
      some (layoutFrame nonce ciphertext, rest) := by
  have htotal : aeadHeaderSize + aeadNonceSize +
      ofBigEndian ((layoutFrame nonce ciphertext ++ rest).take aeadHeaderSize) =
        (layoutFrame nonce ciphertext).length := by
    rw [aeadHeaderSize, header_layoutFrame hlength, length_layoutFrame, hnonce, aeadHeaderSize]
  have hlong : ¬((layoutFrame nonce ciphertext ++ rest).length < aeadHeaderSize ∨
      (layoutFrame nonce ciphertext ++ rest).length < (layoutFrame nonce ciphertext).length) := by
    rw [List.length_append, length_layoutFrame]
    omega
  unfold readAeadFrameBytes
  simp only [htotal, if_neg hlong, List.take_left, List.drop_left]

/-- The frames of sealings within the limit are read back from the start of a stream. -/
theorem readFrames_flatten {aead : Aead} {sealings : List Sealing}
    (h : ∀ x ∈ sealings, x.nonce.length = aeadNonceSize ∧ x.plaintext.length ≤ maxAeadPlaintext)
    (rest : Bytes) :
    readFrames sealings.length ((sealings.map (Sealing.frame aead)).flatten ++ rest) =
      sealings.map (Sealing.frame aead) := by
  induction sealings with
  | nil => rfl
  | cons x sealings ih =>
    obtain ⟨hnonce, hplaintext⟩ := h x List.mem_cons_self
    have hlength : (aead.encrypt x.key x.nonce x.plaintext).length < 2 ^ 32 := by
      rw [aead.length_encrypt]
      rw [maxAeadPlaintext] at hplaintext
      omega
    rw [List.length_cons, List.map_cons, List.flatten_cons, readFrames, Sealing.frame, List.append_assoc,
      readAeadFrameBytes_append hnonce hlength]
    simp only [ih fun y hy ↦ h y (List.mem_cons_of_mem x hy)]

/-! ## The order on the wire -/

theorem take_sealingsFrom (key : Bytes) (counter n : ℕ) (sent : List Bytes) :
    (sealingsFrom key counter sent).take n = sealingsFrom key counter (sent.take n) := by
  apply List.ext_getElem?
  intro i
  rw [List.getElem?_take, getElem?_sealingsFrom, getElem?_sealingsFrom, List.getElem?_take]
  split <;> rfl

theorem mem_sealingsFrom {key : Bytes} {counter : ℕ} {sent : List Bytes} {x : Sealing}
    (h : x ∈ sealingsFrom key counter sent) :
    x.nonce.length = aeadNonceSize ∧ x.plaintext ∈ sent := by
  obtain ⟨i, hi⟩ := List.mem_iff_getElem?.mp h
  rw [getElem?_sealingsFrom, Option.map_eq_some_iff] at hi
  obtain ⟨plaintext, hget, rfl⟩ := hi
  exact ⟨length_makeNonce _, List.mem_of_getElem? hget⟩

open SessionWriter in
/-- Whatever the interleaving, the frame at place `i` of the stream carries the counter `i`, and the
peer reads and accepts every frame. -/
theorem wire_order (aead : Aead) (keys : DerivedKeys) {w : SessionWriter}
    (h : Reachable aead (.start keys) w) :
    ∃ sent, w.written.length = sent.length ∧ sent.length ≤ 2 ^ 64 ∧
      (w.running = none → w.lost = false → sent.length = w.session.sendCounter) ∧
      (∀ i frame, w.written[i]? = some frame → ∃ plaintext, sent[i]? = some plaintext ∧
        frame = layoutFrame (makeNonce i) (aead.encrypt keys.sendKey (makeNonce i) plaintext)) ∧
      readFrames w.written.length w.written.flatten = w.written ∧
      ∀ (peer : Implementation) (s : AeadState) (other : List Sealing),
        s.recvKey = some keys.sendKey → s.recvCounter = 0 → (∀ x ∈ other, x.key ≠ keys.sendKey) →
          (peer.decryptUntilError aead (w.session.made ++ other) w.written s).1 = sent := by
  have hinv := inv_reachable (inv_start aead keys) h
  obtain ⟨all, pending, hat, horder⟩ := hinv.inOrder
  have hwritten : w.written =
      (sealingsFrom keys.sendKey 0 (all.take w.written.length)).map (Sealing.frame aead) := by
    rw [← take_sealingsFrom, List.map_take]
    exact List.prefix_iff_eq_take.mp horder.isPrefix
  have hcount : w.written.length ≤ all.length := by
    have hle := horder.isPrefix.length_le
    simpa using hle
  have hlength : (all.take w.written.length).length = w.written.length := by
    rw [List.length_take, Nat.min_eq_left hcount]
  refine ⟨all.take w.written.length, hlength.symm, ?_, ?_, ?_, ?_, ?_⟩
  · rw [hlength]
    exact hcount.trans horder.count_le
  · intro hrunning hlost
    rw [hrunning] at hat
    cases hat
    have hcomplete := congrArg List.length (horder.complete hlost)
    rw [List.append_nil, List.length_map, length_sealingsFrom] at hcomplete
    rw [hlength, horder.sendCounter, hcomplete]
  · intro i frame hget
    rw [hwritten, List.getElem?_map, getElem?_sealingsFrom, Option.map_map, Option.map_eq_some_iff]
      at hget
    obtain ⟨plaintext, hplaintext, rfl⟩ := hget
    refine ⟨plaintext, hplaintext, ?_⟩
    rw [Function.comp_apply, Nat.zero_add]
    rfl
  · have hsealed : ∀ x ∈ sealingsFrom keys.sendKey 0 (all.take w.written.length),
        x.nonce.length = aeadNonceSize ∧ x.plaintext.length ≤ maxAeadPlaintext := by
      intro x hx
      obtain ⟨hnonce, hplaintext⟩ := mem_sealingsFrom hx
      exact ⟨hnonce, horder.length_le _ (List.mem_of_mem_take hplaintext)⟩
    have hread := @readFrames_flatten aead _ hsealed []
    rwa [List.append_nil, ← hwritten, length_sealingsFrom, hlength] at hread
  · intro peer s other hkey hcounter hother
    have hmade : MadeFor keys.sendKey all (w.session.made ++ other) := by
      rw [horder.made]
      refine ⟨fun x hx ↦ List.mem_append_left _ hx, ?_⟩
      intro x hx hsame
      rcases List.mem_append.mp hx with hown | hforeign
      · exact hown
      · exact absurd hsame (hother x hforeign)
    have hprefix : all.take w.written.length <+: all.drop s.recvCounter := by
      rw [hcounter, List.drop_zero]
      exact List.take_prefix _ _
    have haccepted : (peer.decryptUntilError aead (w.session.made ++ other)
        ((sealingsFrom keys.sendKey s.recvCounter (all.take w.written.length)).map
          (Sealing.frame aead)) s).1 = all.take w.written.length :=
      decryptUntilError_wire hmade horder.length_le horder.count_le peer hkey hprefix
    rwa [hcounter, ← hwritten] at haccepted

/-- The session of the sample. -/
def sampleKeys : DerivedKeys := ⟨List.replicate 32 1, List.replicate 32 2, [3]⟩

open SessionWriter in
/-- A task that streams a chunk while another one is in the `drain` of its `send_encrypted`. -/
theorem exists_interleaved : ∃ w, Reachable ChaCha20Poly1305.aead (.start sampleKeys) w ∧
    w.written.length = 2 := by
  have hsend : Body (sendEncrypted [1]) := .send [1] .nil
  have hstream : Body (streamChunks [[2]]) := .await (.chunk [2] (.await .nil))
  have hspawned : Reachable ChaCha20Poly1305.aead (.start sampleKeys) _ :=
    (Relation.ReflTransGen.single (.spawn hsend)).tail (.spawn hstream)
  have hsent : Reachable ChaCha20Poly1305.aead (.start sampleKeys) _ :=
    ((((hspawned.tail (@Step.resume _ _ [] [_] _ rfl rfl)).tail (.sendable rfl (by decide))).tail
      (.encrypt rfl (encryptFrame_eq_ok .linux rfl (by decide) (by decide)))).tail (.write rfl)).tail
        (.await rfl)
  have hstreamed : Reachable ChaCha20Poly1305.aead (.start sampleKeys) _ :=
    (((((hsent.tail (@Step.resume _ _ [] [_] _ rfl rfl)).tail (.await rfl)).tail
      (@Step.resume _ _ [_] [] _ rfl rfl)).tail (.notCancelled rfl)).tail
        (.encrypt rfl (encryptFrame_eq_ok .linux rfl (by decide) (by decide)))).tail (.write rfl)
  exact ⟨_, hstreamed, rfl⟩

theorem wire_order_sample :
    ∃ w : SessionWriter, w.written.length = 2 ∧
      ∃ sent, w.written.length = sent.length ∧ sent.length ≤ 2 ^ 64 ∧
        (w.running = none → w.lost = false → sent.length = w.session.sendCounter) ∧
        (∀ i frame, w.written[i]? = some frame → ∃ plaintext, sent[i]? = some plaintext ∧
          frame = layoutFrame (makeNonce i)
            (ChaCha20Poly1305.aead.encrypt sampleKeys.sendKey (makeNonce i) plaintext)) ∧
        readFrames w.written.length w.written.flatten = w.written ∧
        ∀ (peer : Implementation) (s : AeadState) (other : List Sealing),
          s.recvKey = some sampleKeys.sendKey → s.recvCounter = 0 →
            (∀ x ∈ other, x.key ≠ sampleKeys.sendKey) →
              (peer.decryptUntilError ChaCha20Poly1305.aead (w.session.made ++ other) w.written s).1 =
                sent := by
  obtain ⟨w, hrun, hlength⟩ := exists_interleaved
  exact ⟨w, hlength, wire_order ChaCha20Poly1305.aead sampleKeys hrun⟩

end Ferry
