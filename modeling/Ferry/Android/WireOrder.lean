import Ferry.Session.WireOrder

/-!
# Frames of the Android client

The coroutines of the client run on many threads and share one session and one stream.  Nothing orders
them: a call reads `sendCounter`, increments it, encrypts and writes in steps of its own, and another
call may take its steps in between.  The frames keep their order in the runs in which no call reads the
counter while another one is on its way.
-/

namespace Ferry

open Exec

/-! ## Calls and their steps -/

/-- Where a call of `encryptFrame` and `output.write` is, with the locals that it still needs. -/
inductive FrameCall
  | counted (key nonce plaintext : Bytes)
  | incremented (key nonce plaintext : Bytes)
  | writing (rest : Bytes)
  deriving DecidableEq

/-- The session, the stream that it writes to, and the calls on their way. -/
structure AndroidWriter where
  session : AeadState
  calls : List FrameCall
  wire : Bytes
  lost : Bool

/-- One step of a coroutine.  A call that starts reads the counter; a call that writes hands over the
next bytes of its frame, up to all of them. -/
inductive WriterEvent
  | call (plaintext : Bytes)
  | increment (index : ℕ)
  | encrypt (index : ℕ)
  | write (index size : ℕ)
  | connectionLost
  deriving DecidableEq

namespace AndroidWriter

/-- A session with fresh keys and no call. -/
def start (keys : DerivedKeys) : AndroidWriter where
  session := .ofKeys keys
  calls := []
  wire := []
  lost := false

/-- `encryptFrame` up to the reading of `sendCounter`.  A plaintext that is too large and a missing key
raise. -/
def readCounter (w : AndroidWriter) (plaintext : Bytes) : AndroidWriter :=
  match w.session.sendKey with
  | none => w
  | some key =>
    if maxAeadPlaintext < plaintext.length then w
    else { w with calls := w.calls ++ [.counted key (makeNonce w.session.sendCounter) plaintext] }

/-- `sendCounter++`. -/
def increment (w : AndroidWriter) (index : ℕ) : AndroidWriter :=
  match w.calls[index]? with
  | some (.counted key nonce plaintext) =>
    { w with
      session.sendCounter := w.session.sendCounter + 1
      calls := w.calls.set index (.incremented key nonce plaintext) }
  | _ => w

/-- The rest of `encryptFrame`. -/
def encrypt (aead : Aead) (w : AndroidWriter) (index : ℕ) : AndroidWriter :=
  match w.calls[index]? with
  | some (.incremented key nonce plaintext) =>
    { w with
      session.made := w.session.made ++ [⟨key, nonce, plaintext⟩]
      calls := w.calls.set index (.writing (layoutFrame nonce (aead.encrypt key nonce plaintext))) }
  | _ => w

/-- `output.write`, which throws when the connection is lost. -/
def write (w : AndroidWriter) (index size : ℕ) : AndroidWriter :=
  match w.calls[index]? with
  | some (.writing rest) =>
    if w.lost then { w with calls := w.calls.eraseIdx index }
    else { w with
      wire := w.wire ++ rest.take size
      calls := if rest.length ≤ size then w.calls.eraseIdx index
        else w.calls.set index (.writing (rest.drop size)) }
  | _ => w

def step (aead : Aead) (w : AndroidWriter) : WriterEvent → AndroidWriter
  | .call plaintext => w.readCounter plaintext
  | .increment index => w.increment index
  | .encrypt index => w.encrypt aead index
  | .write index size => w.write index size
  | .connectionLost => { w with lost := true }

def run (aead : Aead) (w : AndroidWriter) (events : List WriterEvent) : AndroidWriter :=
  events.foldl (step aead) w

/-- A call that takes its steps without a break is `encryptFrame`. -/
theorem encryptFrame_steps (aead : Aead) {w : AndroidWriter} {plaintext frame : Bytes}
    {session : AeadState}
    (h : AndroidFerrySession.encryptFrame aead plaintext w.session = (.ok frame, session)) :
    w.run aead [.call plaintext, .increment w.calls.length, .encrypt w.calls.length] =
      { w with session, calls := w.calls ++ [.writing frame] } := by
  unfold AndroidFerrySession.encryptFrame at h
  simp only [get_bind_run, ofResult_bind_run_eq_ok, raiseIf_bind_run_eq_ok, modify_bind_run,
    require_eq_ok] at h
  obtain ⟨hlength, key, hkey, hrun⟩ := h
  injection hrun with hframe hsession
  obtain rfl := Except.ok.inj hframe
  rw [← hsession]
  simp [run, step, readCounter, increment, encrypt, hkey, hlength]

/-! ## Runs without overlapping calls -/

/-- A call reads the counter only when no other one is on its way, and before the counter has gone
round. -/
def Exclusive (w : AndroidWriter) : WriterEvent → Prop
  | .call _ => w.calls = [] ∧ w.session.sendCounter < 2 ^ 64
  | _ => True

instance (w : AndroidWriter) (event : WriterEvent) : Decidable (w.Exclusive event) := by
  unfold Exclusive
  split <;> infer_instance

/-- Every event of a run is exclusive in the state in which it happens. -/
def ExclusiveRun (aead : Aead) (w : AndroidWriter) : List WriterEvent → Prop
  | [] => True
  | event :: events => w.Exclusive event ∧ (w.step aead event).ExclusiveRun aead events

/-! ## The invariant -/

/-- The stream of all frames of plaintexts. -/
def streamOf (aead : Aead) (key : Bytes) (sent : List Bytes) : Bytes :=
  ((sealingsFrom key 0 sent).map (Sealing.frame aead)).flatten

theorem streamOf_concat (aead : Aead) (key : Bytes) (sent : List Bytes) (plaintext : Bytes) :
    streamOf aead key (sent ++ [plaintext]) = streamOf aead key sent ++
      (⟨key, makeNonce sent.length, plaintext⟩ : Sealing).frame aead := by
  rw [streamOf, SessionWriter.sealingsFrom_concat, Nat.zero_add, List.map_append, List.flatten_append]
  simp [streamOf]

/-- The one call on its way, with the number of sealings, the counter and the bytes still to be
written. -/
inductive OneCall (key : Bytes) : List FrameCall → ℕ → ℕ → Bytes → Prop
  | none {count : ℕ} : OneCall key [] count count []
  | counted {count : ℕ} {plaintext : Bytes} (hlength : plaintext.length ≤ maxAeadPlaintext)
      (hcount : count < 2 ^ 64) : OneCall key [.counted key (makeNonce count) plaintext] count count []
  | incremented {count : ℕ} {plaintext : Bytes} (hlength : plaintext.length ≤ maxAeadPlaintext)
      (hcount : count < 2 ^ 64) :
      OneCall key [.incremented key (makeNonce count) plaintext] count (count + 1) []
  | writing {count : ℕ} {rest : Bytes} : OneCall key [.writing rest] count count rest

theorem OneCall.idle {key rest : Bytes} {count counter : ℕ} (h : OneCall key [] count counter rest) :
    count = counter ∧ rest = [] := by
  cases h
  exact ⟨rfl, rfl⟩

theorem OneCall.get {key rest : Bytes} {calls : List FrameCall} {count counter index : ℕ}
    {call : FrameCall} (h : OneCall key calls count counter rest) (hget : calls[index]? = some call) :
    index = 0 ∧ calls = [call] := by
  cases h with
  | none => simp at hget
  | counted | incremented | writing =>
    rw [List.getElem?_singleton] at hget
    split at hget
    · next hindex => exact ⟨hindex, by rw [Option.some.inj hget]⟩
    · simp at hget

/-- The session has sealed `sent` in order, and the wire holds their frames up to the bytes still to
be written or lost. -/
structure Ordered (aead : Aead) (key : Bytes) (w : AndroidWriter) (sent : List Bytes) (rest : Bytes) :
    Prop where
  sendKey : w.session.sendKey = some key
  made : w.session.made = sealingsFrom key 0 sent
  call : OneCall key w.calls sent.length w.session.sendCounter rest
  length_le : ∀ plaintext ∈ sent, plaintext.length ≤ maxAeadPlaintext
  count_le : sent.length ≤ 2 ^ 64
  isPrefix : w.wire <+: streamOf aead key sent
  complete : w.lost = false → w.wire ++ rest = streamOf aead key sent

section Steps

variable {aead : Aead} {key rest : Bytes} {w : AndroidWriter} {sent : List Bytes}

theorem ordered_start (aead : Aead) (keys : DerivedKeys) :
    Ordered aead keys.sendKey (start keys) [] [] where
  sendKey := rfl
  made := rfl
  call := .none
  length_le _ h := absurd h List.not_mem_nil
  count_le := Nat.zero_le _
  isPrefix := List.prefix_refl _
  complete _ := rfl

theorem Ordered.readCounter (h : Ordered aead key w sent rest) {plaintext : Bytes}
    (hexclusive : w.Exclusive (.call plaintext)) : Ordered aead key (w.readCounter plaintext) sent rest := by
  obtain ⟨hcalls, hcounter⟩ := hexclusive
  unfold AndroidWriter.readCounter
  rw [h.sendKey]
  dsimp only
  split
  · exact h
  · next hlength =>
    have hone := h.call
    rw [hcalls] at hone
    generalize hcount : w.session.sendCounter = counter at hone hcounter
    cases hone
    refine { h with call := ?_ }
    rw [hcalls, hcount]
    exact .counted (not_lt.mp hlength) hcounter

theorem Ordered.increment (h : Ordered aead key w sent rest) (index : ℕ) :
    Ordered aead key (w.increment index) sent rest := by
  unfold AndroidWriter.increment
  split
  · next key' nonce plaintext hget =>
    obtain ⟨rfl, hcalls⟩ := h.call.get hget
    have hone := h.call
    rw [hcalls] at hone
    generalize hcount : w.session.sendCounter = counter at hone
    cases hone with
    | counted hlength hlt =>
      refine { h with call := ?_ }
      rw [hcalls]
      exact .incremented hlength hlt
  · exact h

/-- Encrypting appends the next frame of the order, which is then to be written. -/
theorem Ordered.encrypt (h : Ordered aead key w sent rest) (index : ℕ) :
    ∃ sent' rest', Ordered aead key (w.encrypt aead index) sent' rest' := by
  unfold AndroidWriter.encrypt
  split
  · next key' nonce plaintext hget =>
    obtain ⟨rfl, hcalls⟩ := h.call.get hget
    have hone := h.call
    rw [hcalls] at hone
    generalize hcount : w.session.sendCounter = counter at hone
    generalize hsent : sent.length = count at hone
    cases hone with
    | incremented hlength hlt =>
      subst hsent
      refine ⟨sent ++ [plaintext], (⟨key, makeNonce sent.length, plaintext⟩ : Sealing).frame aead,
        h.sendKey, ?_, ?_, ?_, ?_, ?_, ?_⟩
      · rw [h.made, SessionWriter.sealingsFrom_concat, Nat.zero_add]
      · rw [hcalls, List.length_append, List.length_singleton, hcount]
        exact .writing
      · intro p hp
        rcases List.mem_append.mp hp with hold | hlast
        · exact h.length_le p hold
        · rw [List.mem_singleton.mp hlast]
          exact hlength
      · rw [List.length_append, List.length_singleton]
        exact hlt
      · rw [streamOf_concat]
        exact h.isPrefix.trans (List.prefix_append _ _)
      · intro hlost
        have hcomplete := h.complete hlost
        rw [List.append_nil] at hcomplete
        rw [streamOf_concat, ← hcomplete]
  · exact ⟨sent, rest, h⟩

theorem Ordered.write (h : Ordered aead key w sent rest) (index size : ℕ) :
    ∃ rest', Ordered aead key (w.write index size) sent rest' := by
  unfold AndroidWriter.write
  split
  · next rest' hget =>
    obtain ⟨rfl, hcalls⟩ := h.call.get hget
    have hone := h.call
    rw [hcalls] at hone
    generalize hcount : w.session.sendCounter = counter at hone
    generalize hsent : sent.length = count at hone
    cases hone with
    | writing =>
      split
      · next hlost =>
        refine ⟨[], { h with call := ?_, complete := fun hkept ↦ absurd (hlost.symm.trans hkept) (by decide) }⟩
        rw [hcalls, hcount, hsent]
        exact .none
      · next hlost =>
        have hcomplete := h.complete (Bool.eq_false_iff.mpr hlost)
        have hsplit : w.wire ++ rest.take size ++ rest.drop size = streamOf aead key sent := by
          rw [List.append_assoc, List.take_append_drop, hcomplete]
        refine ⟨rest.drop size, h.sendKey, h.made, ?_, h.length_le, h.count_le,
          ⟨rest.drop size, hsplit⟩, fun _ ↦ hsplit⟩
        dsimp only
        rw [hcalls, hcount, hsent]
        split
        · next hall =>
          rw [List.drop_eq_nil_of_le hall]
          exact .none
        · exact .writing
  · exact ⟨rest, h⟩

theorem Ordered.step (h : Ordered aead key w sent rest) (event : WriterEvent)
    (hexclusive : w.Exclusive event) :
    ∃ sent' rest', Ordered aead key (w.step aead event) sent' rest' := by
  cases event with
  | call plaintext => exact ⟨sent, rest, h.readCounter hexclusive⟩
  | increment index => exact ⟨sent, rest, h.increment index⟩
  | encrypt index => exact h.encrypt index
  | write index size => exact ⟨sent, h.write index size⟩
  | connectionLost =>
    exact ⟨sent, rest, { h with complete := fun hlost ↦ by simp [AndroidWriter.step] at hlost }⟩

theorem Ordered.run (h : Ordered aead key w sent rest) (events : List WriterEvent)
    (hexclusive : w.ExclusiveRun aead events) :
    ∃ sent' rest', Ordered aead key (w.run aead events) sent' rest' := by
  induction events generalizing w sent rest with
  | nil => exact ⟨sent, rest, h⟩
  | cons event events ih =>
    obtain ⟨sent', rest', hstep⟩ := h.step event hexclusive.1
    exact ih hstep hexclusive.2

end Steps

/-! ## The order on the wire -/

/-- The beginning of a stream of parts: some whole parts, and the beginning of the next one. -/
theorem prefix_flatten {α : Type} {l : List α} {parts : List (List α)} (h : l <+: parts.flatten) :
    ∃ n part, l = (parts.take n).flatten ++ part ∧
      (part = [] ∨ ∃ next, parts[n]? = some next ∧ part <+: next) := by
  induction parts generalizing l with
  | nil => exact ⟨0, [], List.prefix_nil.mp h, .inl rfl⟩
  | cons first parts ih =>
    rw [List.flatten_cons] at h
    have hfirst := List.prefix_append first parts.flatten
    rcases Nat.le_total l.length first.length with hshort | hlong
    · exact ⟨0, l, rfl, .inr ⟨first, rfl, List.prefix_of_prefix_length_le h hfirst hshort⟩⟩
    · obtain ⟨after, rfl⟩ := List.prefix_of_prefix_length_le hfirst h hlong
      obtain ⟨n, part, hafter, hpart⟩ := ih ((List.prefix_append_right_inj first).mp h)
      refine ⟨n + 1, part, ?_, hpart⟩
      rw [hafter, List.take_succ_cons, List.flatten_cons, List.append_assoc]

section Wire

variable {aead : Aead} {key rest : Bytes} {w : AndroidWriter} {all : List Bytes}

/-- What the wire holds: the frames of the first plaintexts, and a part of the next one while a call is
on its way or when the connection was lost. -/
theorem Ordered.exists_sent (h : Ordered aead key w all rest) :
    ∃ n part, w.wire = streamOf aead key (all.take n) ++ part ∧
      (part = [] ∨ ∃ x, w.session.made[n]? = some x ∧ part <+: x.frame aead) ∧
      (w.calls = [] → w.lost = false → n = all.length ∧ part = []) := by
  by_cases hidle : w.calls = [] ∧ w.lost = false
  · obtain ⟨hcalls, hlost⟩ := hidle
    have hone := h.call
    rw [hcalls] at hone
    have hcomplete := h.complete hlost
    rw [hone.idle.2] at hcomplete
    refine ⟨all.length, [], ?_, .inl rfl, fun _ _ ↦ ⟨rfl, rfl⟩⟩
    rw [List.take_length, List.append_nil, ← hcomplete, List.append_nil]
  · obtain ⟨n, part, hwire, hpart⟩ := prefix_flatten h.isPrefix
    refine ⟨n, part, ?_, ?_, fun hcalls hlost ↦ absurd ⟨hcalls, hlost⟩ hidle⟩
    · rw [hwire, streamOf, ← take_sealingsFrom, List.map_take]
    · rcases hpart with hnil | ⟨next, hnext, hprefix⟩
      · exact .inl hnil
      · rw [List.getElem?_map, Option.map_eq_some_iff] at hnext
        obtain ⟨x, hx, rfl⟩ := hnext
        rw [← h.made] at hx
        exact .inr ⟨x, hx, hprefix⟩

/-- No nonce is used twice. -/
theorem Ordered.nonce_unique (h : Ordered aead key w all rest) :
    ∀ x ∈ w.session.made, ∀ y ∈ w.session.made, x.nonce = y.nonce → x = y := by
  have hget : ∀ x ∈ w.session.made, ∃ i plaintext, i < 2 ^ 64 ∧ all[i]? = some plaintext ∧
      x = ⟨key, makeNonce i, plaintext⟩ := by
    intro x hx
    rw [h.made] at hx
    obtain ⟨i, hi⟩ := List.mem_iff_getElem?.mp hx
    rw [getElem?_sealingsFrom, Option.map_eq_some_iff, Nat.zero_add] at hi
    obtain ⟨plaintext, hplaintext, rfl⟩ := hi
    have hlt := (List.getElem?_eq_some_iff.mp hplaintext).1
    exact ⟨i, plaintext, hlt.trans_le h.count_le, hplaintext, rfl⟩
  intro x hx y hy hnonce
  obtain ⟨i, p, hi, hp, rfl⟩ := hget x hx
  obtain ⟨k, q, hk, hq, rfl⟩ := hget y hy
  obtain rfl := makeNonce_injOn hi hk hnonce
  rw [Option.some.inj (hp.symm.trans hq)]

/-- The peer reads the frames of the first plaintexts from the wire and accepts them. -/
theorem Ordered.accepted (h : Ordered aead key w all rest) {n : ℕ} {part : Bytes}
    (hwire : w.wire = streamOf aead key (all.take n) ++ part) {s : AeadState} {other : List Sealing}
    (hkey : s.recvKey = some key) (hcounter : s.recvCounter = 0) (hother : ∀ x ∈ other, x.key ≠ key) :
    (Implementation.linux.decryptUntilError aead (w.session.made ++ other)
      (readFrames (all.take n).length w.wire) s).1 = all.take n := by
  have hsealed : ∀ x ∈ sealingsFrom key 0 (all.take n),
      x.nonce.length = aeadNonceSize ∧ x.plaintext.length ≤ maxAeadPlaintext := by
    intro x hx
    obtain ⟨hnonce, hplaintext⟩ := mem_sealingsFrom hx
    exact ⟨hnonce, h.length_le _ (List.mem_of_mem_take hplaintext)⟩
  have hread := @readFrames_flatten aead _ hsealed part
  rw [length_sealingsFrom] at hread
  have hmade : MadeFor key all (w.session.made ++ other) := by
    rw [h.made]
    refine ⟨fun x hx ↦ List.mem_append_left _ hx, ?_⟩
    intro x hx hsame
    rcases List.mem_append.mp hx with hown | hforeign
    · exact hown
    · exact absurd hsame (hother x hforeign)
  have hprefix : all.take n <+: all.drop s.recvCounter := by
    rw [hcounter, List.drop_zero]
    exact List.take_prefix _ _
  have haccepted := @decryptUntilError_wire aead _ _ _ hmade h.length_le h.count_le .linux _ _ hkey hprefix
  rw [hcounter] at haccepted
  rw [hwire, streamOf, hread]
  exact haccepted

end Wire

end AndroidWriter

open AndroidWriter in
/-- In every run in which no call reads the counter while another one is on its way: no nonce is used
twice, the wire holds whole frames in the order of their counters and at its end a part of the next
one, and the service reads and accepts all of them. -/
theorem wire_order_of_exclusive (aead : Aead) (keys : DerivedKeys) (events : List WriterEvent)
    (h : (start keys).ExclusiveRun aead events) :
    let w := (start keys).run aead events
    (∀ x ∈ w.session.made, ∀ y ∈ w.session.made, x.nonce = y.nonce → x = y) ∧
    ∃ (sent : List Bytes) (part : Bytes), w.wire = streamOf aead keys.sendKey sent ++ part ∧
      (∀ (i : ℕ) (plaintext : Bytes), sent[i]? = some plaintext →
        w.session.made[i]? = some ⟨keys.sendKey, makeNonce i, plaintext⟩) ∧
      (part = [] ∨ ∃ x, w.session.made[sent.length]? = some x ∧ part <+: x.frame aead) ∧
      (w.calls = [] → w.lost = false → sent.length = w.session.sendCounter ∧ part = []) ∧
      ∀ (s : AeadState) (other : List Sealing), s.recvKey = some keys.sendKey → s.recvCounter = 0 →
        (∀ x ∈ other, x.key ≠ keys.sendKey) →
          (Implementation.linux.decryptUntilError aead (w.session.made ++ other)
            (readFrames sent.length w.wire) s).1 = sent := by
  intro w
  obtain ⟨all, rest, hordered⟩ := (ordered_start aead keys).run events h
  obtain ⟨n, part, hwire, hpart, hidle⟩ := hordered.exists_sent
  refine ⟨hordered.nonce_unique, all.take n, part, hwire, ?_, ?_, ?_, ?_⟩
  · intro i plaintext hget
    rw [List.getElem?_take] at hget
    split at hget
    · rw [hordered.made, getElem?_sealingsFrom, hget, Nat.zero_add]
      rfl
    · simp at hget
  · rcases hpart with hnil | ⟨x, hx, hprefix⟩
    · exact .inl hnil
    · have hlt := (List.getElem?_eq_some_iff.mp hx).1
      rw [hordered.made, length_sealingsFrom] at hlt
      refine .inr ⟨x, ?_, hprefix⟩
      rwa [List.length_take, Nat.min_eq_left hlt.le]
  · intro hcalls hlost
    obtain ⟨hall, hnil⟩ := hidle hcalls hlost
    rw [hall, List.take_length]
    have hone := hordered.call
    rw [hcalls] at hone
    exact ⟨hone.idle.1, hnil⟩
  · intro s other hkey hcounter hother
    exact hordered.accepted hwire hkey hcounter hother

instance AndroidWriter.decidableExclusiveRun (aead : Aead) :
    ∀ (w : AndroidWriter) (events : List WriterEvent), Decidable (w.ExclusiveRun aead events)
  | _, [] => .isTrue trivial
  | w, event :: events =>
    @instDecidableAnd _ _ inferInstance (decidableExclusiveRun aead (w.step aead event) events)

/-- Two messages, one after the other, of which the second is half written. -/
def sampleEvents : List WriterEvent :=
  [.call [1], .increment 0, .encrypt 0, .write 0 40, .call [2], .increment 0, .encrypt 0, .write 0 20]

open AndroidWriter in
theorem wire_order_of_exclusive_sample :
    let w := (start sampleKeys).run ChaCha20Poly1305.aead sampleEvents
    (∀ x ∈ w.session.made, ∀ y ∈ w.session.made, x.nonce = y.nonce → x = y) ∧
    ∃ (sent : List Bytes) (part : Bytes),
      w.wire = streamOf ChaCha20Poly1305.aead sampleKeys.sendKey sent ++ part ∧
      (∀ (i : ℕ) (plaintext : Bytes), sent[i]? = some plaintext →
        w.session.made[i]? = some ⟨sampleKeys.sendKey, makeNonce i, plaintext⟩) ∧
      (part = [] ∨
        ∃ x, w.session.made[sent.length]? = some x ∧ part <+: x.frame ChaCha20Poly1305.aead) ∧
      (w.calls = [] → w.lost = false → sent.length = w.session.sendCounter ∧ part = []) ∧
      ∀ (s : AeadState) (other : List Sealing), s.recvKey = some sampleKeys.sendKey →
        s.recvCounter = 0 → (∀ x ∈ other, x.key ≠ sampleKeys.sendKey) →
          (Implementation.linux.decryptUntilError ChaCha20Poly1305.aead (w.session.made ++ other)
            (readFrames sent.length w.wire) s).1 = sent :=
  wire_order_of_exclusive ChaCha20Poly1305.aead sampleKeys sampleEvents (by decide +kernel)

open AndroidWriter in
/-- Two coroutines that both read the counter before one of them increments it: two messages are
sealed under one key and one nonce. -/
theorem nonce_reused :
    ∃ events, ∃ x ∈ ((start sampleKeys).run ChaCha20Poly1305.aead events).session.made,
      ∃ y ∈ ((start sampleKeys).run ChaCha20Poly1305.aead events).session.made,
        x.key = y.key ∧ x.nonce = y.nonce ∧ x.plaintext ≠ y.plaintext :=
  ⟨[.call [1], .call [2], .increment 0, .increment 1, .encrypt 0, .encrypt 1],
    ⟨sampleKeys.sendKey, makeNonce 0, [1]⟩, .head _, ⟨sampleKeys.sendKey, makeNonce 0, [2]⟩,
    .tail _ (.head _), rfl, rfl, by decide⟩

end Ferry
