import Ferry.Base.Text

/-!
# The trust store of the Android client

The list of trusted peers that `FerryTrustStore` keeps as a JSON array.  Every entry belongs to the
text of a public key, and writing the trust of a key replaces the entries of that key only.
-/

namespace Ferry

/-- `FerryTrustStore.TrustedPeer`. -/
structure TrustedPeer where
  deviceId : Text
  deviceName : Text
  identityPublicKeyB64 : Text
  pairedAt : ℤ
  lastSeen : ℤ
  deriving DecidableEq

namespace Text

/-- The code points that Kotlin's `isWhitespace` accepts. -/
def whitespace : List ℕ :=
  [0x09, 0x0A, 0x0B, 0x0C, 0x0D, 0x1C, 0x1D, 0x1E, 0x1F, 0x20, 0xA0, 0x1680, 0x2000, 0x2001, 0x2002,
    0x2003, 0x2004, 0x2005, 0x2006, 0x2007, 0x2008, 0x2009, 0x200A, 0x2028, 0x2029, 0x202F, 0x205F,
    0x3000]

/-- `isBlank`. -/
def isBlank (t : Text) : Bool := t.all fun c ↦ whitespace.contains c.val

end Text

/-- What `listPeers` returns. -/
abbrev FerryTrustStore := List TrustedPeer

namespace FerryTrustStore

def findByPublicKey (peers : FerryTrustStore) (identityPublicKeyB64 : Text) : Option TrustedPeer :=
  peers.find? fun peer ↦ peer.identityPublicKeyB64 = identityPublicKeyB64

def isKnownPeer (peers : FerryTrustStore) (identityPublicKeyB64 : Text) : Bool :=
  (peers.findByPublicKey identityPublicKeyB64).isSome

def persistTrust (peers : FerryTrustStore) (now : ℤ) (deviceId deviceName identityPublicKeyB64 : Text) :
    FerryTrustStore :=
  let existing := peers.findByPublicKey identityPublicKeyB64
  let peer : TrustedPeer :=
    { deviceId := if deviceId.isBlank then (existing.map TrustedPeer.deviceId).getD deviceId else deviceId
      deviceName
      identityPublicKeyB64
      pairedAt := (existing.map TrustedPeer.pairedAt).getD now
      lastSeen := now }
  peers.filter (fun peer ↦ peer.identityPublicKeyB64 ≠ identityPublicKeyB64) ++ [peer]

theorem isKnownPeer_iff {peers : FerryTrustStore} {key : Text} :
    peers.isKnownPeer key ↔ ∃ peer ∈ peers, peer.identityPublicKeyB64 = key := by
  simp [isKnownPeer, findByPublicKey]

/-- Writing the trust of a key makes this key known and changes nothing for the others. -/
theorem isKnownPeer_persistTrust {peers : FerryTrustStore} {now : ℤ} {deviceId deviceName key key' : Text} :
    (peers.persistTrust now deviceId deviceName key).isKnownPeer key' ↔
      key' = key ∨ peers.isKnownPeer key' := by
  simp only [isKnownPeer_iff, persistTrust, List.mem_append, List.mem_filter, List.mem_singleton,
    decide_eq_true_eq]
  constructor
  · intro h
    obtain ⟨peer, hmem | rfl, hkey⟩ := h
    · exact .inr ⟨peer, hmem.1, hkey⟩
    · exact .inl hkey.symm
  · intro h
    by_cases hsame : key' = key
    · exact ⟨_, .inr rfl, hsame.symm⟩
    · obtain ⟨peer, hmem, hkey⟩ := h.resolve_left hsame
      exact ⟨peer, .inl ⟨hmem, fun hold ↦ hsame (hkey.symm.trans hold)⟩, hkey⟩

end FerryTrustStore

end Ferry
