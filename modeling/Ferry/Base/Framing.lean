import Mathlib.Data.List.Forall2

/-!
# Frames in a stream

A decoder looks at the front of a buffer and returns what the first frame holds and how many items it
takes, or nothing while the frame is not whole.  A buffer that is filled by reads of any sizes and emptied
by such a decoder yields the frames of the stream, whatever the sizes of the reads.
-/

namespace Ferry

/-- Decode the frame at the front of a buffer. -/
abbrev Decoder (ε β α : Type) := List β → Except ε (Option α × ℕ)

namespace Decoder

variable {ε β α : Type} (decode : Decoder ε β α)

/-- Decode and drop the frames at the front of a buffer, at most `fuel` of them. -/
def drain : ℕ → List β → Except ε (List α × List β)
  | 0, buffer => .ok ([], buffer)
  | fuel + 1, buffer => do
    match ← decode buffer with
    | (none, _) => return ([], buffer)
    | (some a, consumed) =>
      let (decoded, rest) ← drain fuel (buffer.drop consumed)
      return (a :: decoded, rest)

/-- Append each read to the buffer, and decode and drop the frames at its front. -/
def feed : List β → List (List β) → Except ε (List α × List β)
  | buffer, [] => .ok ([], buffer)
  | buffer, read :: reads => do
    let (decoded, rest) ← drain decode (buffer ++ read).length (buffer ++ read)
    let (later, last) ← feed rest reads
    return (decoded ++ later, last)

/-- A frame is decoded whatever follows it, and no shorter part of it is. -/
structure IsFrame (frame : List β) (a : α) : Prop where
  ne_nil : frame ≠ []
  whole : ∀ rest, decode (frame ++ rest) = .ok (some a, frame.length)
  cut : ∀ part, part <+: frame → part ≠ frame → decode part = .ok (none, 0)

variable {decode} {frames : List (List β)} {decoded : List α}

theorem length_le_flatten (h : List.Forall₂ (IsFrame decode) frames decoded) (rest : List β) :
    decoded.length ≤ (frames.flatten ++ rest).length := by
  induction h with
  | nil => exact Nat.zero_le _
  | @cons frame a frames decoded hframe _ ih =>
    have hpos := List.length_pos_iff.mpr hframe.ne_nil
    rw [List.flatten_cons, List.append_assoc, List.length_append, List.length_cons]
    omega

/-- All whole frames of a buffer are taken, and the bytes of the frame that is not whole are left. -/
theorem drain_flatten (h : List.Forall₂ (IsFrame decode) frames decoded) {part : List β}
    (hpart : decode part = .ok (none, 0)) {fuel : ℕ} (hfuel : decoded.length ≤ fuel) :
    drain decode fuel (frames.flatten ++ part) = .ok (decoded, part) := by
  induction h generalizing fuel with
  | nil =>
    cases fuel with
    | zero => rfl
    | succ fuel =>
      rw [List.flatten_nil, List.nil_append, drain, hpart]
      rfl
  | @cons frame a frames decoded hframe _ ih =>
    cases fuel with
    | zero => exact absurd hfuel (Nat.not_succ_le_zero _)
    | succ fuel =>
      have hrest := ih (Nat.le_of_succ_le_succ hfuel)
      rw [List.flatten_cons, List.append_assoc, drain, hframe.whole]
      simp only [bind, Except.bind, List.drop_left, hrest, pure, Except.pure]

/-- Where a prefix of a stream ends: after some whole frames and a part of the next one. -/
theorem exists_split (hnil : decode [] = .ok (none, 0))
    (h : List.Forall₂ (IsFrame decode) frames decoded) {buffer rest : List β}
    (hstream : buffer ++ rest = frames.flatten) :
    ∃ before after taken left part, decoded = taken ++ left ∧
      List.Forall₂ (IsFrame decode) before taken ∧ List.Forall₂ (IsFrame decode) after left ∧
      buffer = before.flatten ++ part ∧ decode part = .ok (none, 0) ∧ part ++ rest = after.flatten := by
  induction h generalizing buffer with
  | nil =>
    obtain ⟨rfl, rfl⟩ := List.append_eq_nil_iff.mp hstream
    exact ⟨[], [], [], [], [], rfl, .nil, .nil, rfl, hnil, rfl⟩
  | @cons frame a frames decoded hframe hframes ih =>
    rw [List.flatten_cons] at hstream
    by_cases hwhole : frame <+: buffer
    · obtain ⟨tail, rfl⟩ := hwhole
      rw [List.append_assoc] at hstream
      obtain ⟨before, after, taken, left, part, hdecoded, hbefore, hafter, hbuffer, hpart, hrest⟩ :=
        ih (List.append_cancel_left hstream)
      refine ⟨frame :: before, after, a :: taken, left, part, ?_, .cons hframe hbefore, hafter, ?_, hpart,
        hrest⟩
      · rw [hdecoded, List.cons_append]
      · rw [hbuffer, List.flatten_cons, List.append_assoc]
    · have hprefix : buffer <+: frame :=
        (List.prefix_or_prefix_of_prefix ⟨rest, hstream⟩ ⟨frames.flatten, rfl⟩).resolve_right hwhole
      have hne : buffer ≠ frame := fun heq ↦ hwhole (heq ▸ List.prefix_rfl)
      exact ⟨[], frame :: frames, [], a :: decoded, buffer, rfl, .nil, .cons hframe hframes, rfl,
        hframe.cut buffer hprefix hne, hstream⟩

/-- However a stream of whole frames is cut into reads, the frames are decoded in order and nothing is
left. -/
theorem feed_flatten (hnil : decode [] = .ok (none, 0)) {reads : List (List β)} {buffer : List β}
    (h : List.Forall₂ (IsFrame decode) frames decoded) (hbuffer : decode buffer = .ok (none, 0))
    (hstream : buffer ++ reads.flatten = frames.flatten) :
    feed decode buffer reads = .ok (decoded, []) := by
  induction reads generalizing buffer frames decoded with
  | nil =>
    rw [List.flatten_nil, List.append_nil] at hstream
    cases h with
    | nil =>
      obtain rfl : buffer = [] := hstream
      rfl
    | @cons frame a frames decoded hframe _ =>
      -- a whole frame in the buffer would have been decoded
      rw [hstream, List.flatten_cons, hframe.whole] at hbuffer
      simp only [Except.ok.injEq, Prod.mk.injEq, reduceCtorEq, false_and] at hbuffer
  | cons read reads ih =>
    rw [List.flatten_cons, ← List.append_assoc] at hstream
    obtain ⟨before, after, taken, left, part, rfl, hbefore, hafter, hread, hpart, hrest⟩ :=
      exists_split hnil h hstream
    have hdrained := drain_flatten hbefore hpart (length_le_flatten hbefore part)
    rw [feed, hread, hdrained]
    simp only [bind, Except.bind, ih hafter hpart hrest, pure, Except.pure]

end Decoder

/-! ## Reading from a stream -/

/-- Take frames from a stream until one is refused, at most `fuel` of them. -/
def readUntilError {ε σ α : Type} (next : σ → Except ε (α × σ)) : ℕ → σ → List α × Option ε
  | 0, _ => ([], none)
  | fuel + 1, stream =>
    match next stream with
    | .error e => ([], some e)
    | .ok (a, rest) =>
      let (received, e) := readUntilError next fuel rest
      (a :: received, e)

/-- A reader that takes each frame from the front of a stream takes all frames of the stream. -/
theorem readUntilError_flatten {ε β α : Type} {next : List β → Except ε (α × List β)} {e : ε}
    (hend : next [] = .error e) {frames : List (List β)} {received : List α}
    (h : List.Forall₂ (fun frame a ↦ ∀ rest, next (frame ++ rest) = .ok (a, rest)) frames received)
    {fuel : ℕ} (hfuel : received.length < fuel) :
    readUntilError next fuel frames.flatten = (received, some e) := by
  induction h generalizing fuel with
  | nil =>
    obtain ⟨fuel, rfl⟩ := Nat.exists_eq_add_one.mpr hfuel
    rw [List.flatten_nil, readUntilError, hend]
  | @cons frame a frames received hframe _ ih =>
    obtain ⟨fuel, rfl⟩ := Nat.exists_eq_add_one.mpr (Nat.zero_lt_of_lt hfuel)
    rw [List.flatten_cons, readUntilError, hframe]
    simp only [ih (Nat.lt_of_succ_lt_succ hfuel)]

end Ferry
