import Ferry.Daemon.Sessions

/-!
# The registry of sessions

`_active_sessions` over the whole life of the connections: the handshake that installs a session, the
await before its loop, the loop, and the `finally` that removes the entry.  The entries are keyed by the
text of an address, and connections of one address may overlap.
-/

namespace Ferry

open Text

/-- Where `_run_handshake` is: before it installs the session, at the `drain` of CAPABILITIES, in the
session loop, at the `wait_closed` of its `finally`, or past it. -/
inductive ConnectionPhase
  | handshaking
  | advertising
  | looping
  | closing
  | ended
  deriving DecidableEq

/-- A `PeerSession`, as far as the registry depends on it. -/
structure PeerConnection where
  remoteAddr : Text
  phase : ConnectionPhase
  deriving DecidableEq

/-- `_active_sessions`, with the connections by number.  `reported` records the connection whose state
or SAS was the last to be reported under an address. -/
structure Registry where
  connections : Dict ℕ PeerConnection
  activeSessions : Dict Text ℕ
  reported : Dict Text ℕ

/-- What may happen to a connection.  It opens by `_handle_incoming_connection` or `connect_to_peer`; its
handshake succeeds; CAPABILITIES are sent; its state changes and is reported; it ends, by an exception or
not; and its writer is closed. -/
inductive RegistryEvent
  | opens (c : ℕ) (remoteAddr : Text)
  | authenticated (c : ℕ) (isPaired : Bool)
  | advertised (c : ℕ)
  | stateChanged (c : ℕ)
  | ends (c : ℕ) (raised : Bool)
  | closed (c : ℕ)

/-- The connection that an event belongs to. -/
def RegistryEvent.connection : RegistryEvent → ℕ
  | .opens c _ | .authenticated c _ | .advertised c | .stateChanged c | .ends c _ | .closed c => c

namespace Registry

def empty : Registry := ⟨∅, ∅, ∅⟩

/-! ## Steps -/

def setPhase (w : Registry) (c : ℕ) (connection : PeerConnection) (phase : ConnectionPhase) : Registry :=
  { w with connections := w.connections.set c { connection with phase } }

/-- `_notify_session_change` and `on_pairing_request`. -/
def report (w : Registry) (c : ℕ) (remoteAddr : Text) : Registry :=
  { w with reported := w.reported.set remoteAddr c }

/-- `_active_sessions[ps.remote_addr] = ps`, and the report that follows it. -/
def install (w : Registry) (c : ℕ) (remoteAddr : Text) : Registry :=
  { w with activeSessions := w.activeSessions.set remoteAddr c }.report c remoteAddr

/-- `_active_sessions.pop(ps.remote_addr, None)`. -/
def remove (w : Registry) (remoteAddr : Text) : Registry :=
  { w with activeSessions := w.activeSessions.pop remoteAddr }

/-- An event of a connection that is open. -/
def advance (w : Registry) (c : ℕ) (connection : PeerConnection) : RegistryEvent → Registry
  | .authenticated _ isPaired =>
    match connection.phase with
    | .handshaking =>
      (w.install c connection.remoteAddr).setPhase c connection
        (if isPaired then .advertising else .looping)
    | _ => w
  | .advertised _ =>
    match connection.phase with
    | .advertising => w.setPhase c connection .looping
    | _ => w
  | .stateChanged _ =>
    match connection.phase with
    | .looping => w.report c connection.remoteAddr
    | _ => w
  | .ends _ raised =>
    match connection.phase with
    | .handshaking | .advertising | .looping =>
      let w := if raised then w.report c connection.remoteAddr else w
      (w.remove connection.remoteAddr).setPhase c connection .closing
    | _ => w
  | .closed _ =>
    match connection.phase with
    | .closing => (w.report c connection.remoteAddr).setPhase c connection .ended
    | _ => w
  | .opens _ _ => w

/-- One event. -/
def step (w : Registry) (event : RegistryEvent) : Registry :=
  match w.connections.get event.connection with
  | some connection => w.advance event.connection connection event
  | none =>
    match event with
    | .opens c remoteAddr => { w with connections := w.connections.set c ⟨remoteAddr, .handshaking⟩ }
    | _ => w

def run (w : Registry) (events : List RegistryEvent) : Registry := events.foldl step w

/-! ## The law -/

/-- The session is installed and has not ended. -/
def Live (connection : PeerConnection) : Prop := connection.phase = .advertising ∨ connection.phase = .looping

instance (connection : PeerConnection) : Decidable (Live connection) :=
  inferInstanceAs (Decidable (_ ∨ _))

/-- A session whose loop runs is the entry of its address, and an entry is the session that was the last
to be reported under the address. -/
structure Reachable (w : Registry) : Prop where
  registered : ∀ c connection, w.connections.get c = some connection → connection.phase = .looping →
    w.activeSessions.get connection.remoteAddr = some c
  reported : ∀ remoteAddr c, w.activeSessions.get remoteAddr = some c →
    w.reported.get remoteAddr = some c

/-- An event neither removes nor replaces the entry of another connection. -/
def KeepsOthers (w : Registry) (event : RegistryEvent) : Prop :=
  ∀ remoteAddr c, w.activeSessions.get remoteAddr = some c → c ≠ event.connection →
    (w.step event).activeSessions.get remoteAddr = some c

/-- Every event of a run keeps the entries of other connections and leaves every session reachable. -/
def Lawful (w : Registry) : List RegistryEvent → Prop
  | [] => True
  | event :: events =>
    w.KeepsOthers event ∧ (w.step event).Reachable ∧ (w.step event).Lawful events

/-! ## The condition -/

/-- The event installs a session, removes an entry, or reports the state of a session that has ended. -/
def Writes (connection : PeerConnection) : RegistryEvent → Bool
  | .authenticated _ _ => connection.phase = .handshaking
  | .ends _ _ => connection.phase ∈ [.handshaking, .advertising, .looping]
  | .closed _ => connection.phase = .closing
  | _ => false

/-- No other session of the same address is live while an event installs, removes or reports late. -/
def Alone (w : Registry) (event : RegistryEvent) : Prop :=
  ∀ connection ∈ w.connections.get event.connection, Writes connection event = true →
    ∀ item ∈ w.connections.items, item.1 ≠ event.connection →
      item.2.remoteAddr = connection.remoteAddr → ¬Live item.2

instance (w : Registry) (event : RegistryEvent) : Decidable (w.Alone event) := by
  unfold Alone
  infer_instance

/-- Connections of one address do not overlap in a run. -/
def Separate (w : Registry) : List RegistryEvent → Prop
  | [] => True
  | event :: events => w.Alone event ∧ (w.step event).Separate events

instance decidableSeparate : ∀ (w : Registry) (events : List RegistryEvent), Decidable (w.Separate events)
  | _, [] => isTrue trivial
  | w, event :: events =>
    have := decidableSeparate (w.step event) events
    inferInstanceAs (Decidable (_ ∧ _))

/-! ## The invariant -/

/-- The entries are the live sessions, and each is the last to be reported under its address. -/
structure Registered (w : Registry) : Prop where
  entry_iff : ∀ remoteAddr c, w.activeSessions.get remoteAddr = some c ↔
    ∃ connection, w.connections.get c = some connection ∧ connection.remoteAddr = remoteAddr ∧
      Live connection
  reported : ∀ remoteAddr c, w.activeSessions.get remoteAddr = some c →
    w.reported.get remoteAddr = some c

variable {w : Registry} {event : RegistryEvent}

theorem registered_empty : empty.Registered where
  entry_iff _ _ := by simp [empty]
  reported _ _ h := nomatch h

theorem Registered.reachable (h : w.Registered) : w.Reachable where
  registered _ connection hc hlooping :=
    (h.entry_iff _ _).mpr ⟨connection, hc, rfl, .inr hlooping⟩
  reported := h.reported

/-- The condition, with look-ups in the place of a list. -/
theorem alone_iff : w.Alone event ↔
    ∀ connection, w.connections.get event.connection = some connection →
      Writes connection event = true → ∀ c other, w.connections.get c = some other →
        c ≠ event.connection → other.remoteAddr = connection.remoteAddr → ¬Live other := by
  constructor
  · intro h connection hconnection hwrites c other hother
    exact h connection hconnection hwrites (c, other) (Dict.mem_items.mpr hother)
  · rintro h connection hconnection hwrites ⟨_, _⟩ hitem
    exact h connection hconnection hwrites _ _ (Dict.mem_items.mp hitem)

/-! ## What a step does -/

/-- Every step, with the phase in which its connection is. -/
inductive Moved (w : Registry) : RegistryEvent → Registry → Prop
  | idle {e} (h : ∀ connection, w.connections.get e.connection = some connection →
      Writes connection e = false) : Moved w e w
  | opened {c remoteAddr} (h : w.connections.get c = none) :
      Moved w (.opens c remoteAddr)
        { w with connections := w.connections.set c ⟨remoteAddr, .handshaking⟩ }
  | installed {c connection isPaired} (h : w.connections.get c = some connection)
      (hphase : connection.phase = .handshaking) :
      Moved w (.authenticated c isPaired) ((w.install c connection.remoteAddr).setPhase c connection
        (if isPaired then .advertising else .looping))
  | looped {c connection} (h : w.connections.get c = some connection)
      (hphase : connection.phase = .advertising) :
      Moved w (.advertised c) (w.setPhase c connection .looping)
  | changed {c connection} (h : w.connections.get c = some connection)
      (hphase : connection.phase = .looping) :
      Moved w (.stateChanged c) (w.report c connection.remoteAddr)
  | removed {c connection raised} (h : w.connections.get c = some connection)
      (hphase : connection.phase = .handshaking ∨ Live connection) :
      Moved w (.ends c raised)
        (((if raised then w.report c connection.remoteAddr else w).remove
          connection.remoteAddr).setPhase c connection .closing)
  | closed {c connection} (h : w.connections.get c = some connection)
      (hphase : connection.phase = .closing) :
      Moved w (.closed c) ((w.report c connection.remoteAddr).setPhase c connection .ended)

theorem advance_moved {connection : PeerConnection}
    (h : w.connections.get event.connection = some connection) :
    Moved w event (w.advance event.connection connection event) := by
  have hidle : Writes connection event = false → Moved w event w := by
    refine fun hwrites ↦ .idle fun other hother ↦ ?_
    obtain rfl := Option.some.inj (h.symm.trans hother)
    exact hwrites
  cases event with
  | opens c remoteAddr => exact hidle rfl
  | authenticated c isPaired =>
    cases hphase : connection.phase with
    | handshaking =>
      simp only [advance, hphase]
      exact .installed h hphase
    | _ =>
      simp only [advance, hphase]
      exact hidle (by simp [Writes, hphase])
  | advertised c =>
    cases hphase : connection.phase with
    | advertising =>
      simp only [advance, hphase]
      exact .looped h hphase
    | _ =>
      simp only [advance, hphase]
      exact hidle rfl
  | stateChanged c =>
    cases hphase : connection.phase with
    | looping =>
      simp only [advance, hphase]
      exact .changed h hphase
    | _ =>
      simp only [advance, hphase]
      exact hidle rfl
  | ends c raised =>
    cases hphase : connection.phase with
    | handshaking =>
      simp only [advance, hphase]
      exact .removed h (.inl hphase)
    | advertising =>
      simp only [advance, hphase]
      exact .removed h (.inr (.inl hphase))
    | looping =>
      simp only [advance, hphase]
      exact .removed h (.inr (.inr hphase))
    | _ =>
      simp only [advance, hphase]
      exact hidle (by simp [Writes, hphase])
  | closed c =>
    cases hphase : connection.phase with
    | closing =>
      simp only [advance, hphase]
      exact .closed h hphase
    | _ =>
      simp only [advance, hphase]
      exact hidle (by simp [Writes, hphase])

theorem step_moved (w : Registry) (event : RegistryEvent) : Moved w event (w.step event) := by
  unfold step
  split
  · next connection h => exact advance_moved h
  · next h =>
    cases event with
    | opens c remoteAddr => exact .opened h
    | _ => exact .idle fun _ hconnection ↦ nomatch h.symm.trans hconnection

/-- The entries after the connections have changed in one place. -/
theorem Registered.setConnection {w' : Registry} (h : w.Registered) {c : ℕ} {connection : PeerConnection}
    (hconnections : w'.connections = w.connections.set c connection)
    (hentry : ∀ remoteAddr, w'.activeSessions.get remoteAddr = some c ↔
      connection.remoteAddr = remoteAddr ∧ Live connection)
    (hothers : ∀ remoteAddr other, other ≠ c → (w'.activeSessions.get remoteAddr = some other ↔
      w.activeSessions.get remoteAddr = some other))
    (hreported : ∀ remoteAddr other, w'.activeSessions.get remoteAddr = some other →
      w'.reported.get remoteAddr = some other) : w'.Registered where
  entry_iff remoteAddr other := by
    rw [hconnections]
    by_cases hother : other = c
    · subst hother
      rw [hentry, Dict.get_set_self]
      simp
    · rw [hothers remoteAddr other hother, Dict.get_set_of_ne _ _ hother]
      exact h.entry_iff remoteAddr other
  reported := hreported

/-- An entry of a connection whose phase is known. -/
theorem Registered.entry_self (h : w.Registered) {c : ℕ} {connection : PeerConnection}
    (hc : w.connections.get c = some connection) (remoteAddr : Text) :
    w.activeSessions.get remoteAddr = some c ↔ connection.remoteAddr = remoteAddr ∧ Live connection := by
  rw [h.entry_iff]
  constructor
  · rintro ⟨other, hother, hlive⟩
    obtain rfl := Option.some.inj (hc.symm.trans hother)
    exact hlive
  · exact fun hlive ↦ ⟨connection, hc, hlive⟩

/-- Where no other session is live, the entry of an address can only be the connection itself. -/
theorem Registered.entry_eq (h : w.Registered) (halone : w.Alone event) {connection : PeerConnection}
    (hc : w.connections.get event.connection = some connection)
    (hwrites : Writes connection event = true) (other : ℕ)
    (hother : w.activeSessions.get connection.remoteAddr = some other) : other = event.connection := by
  by_contra hne
  obtain ⟨found, hfound, haddr, hlive⟩ := (h.entry_iff _ _).mp hother
  exact alone_iff.mp halone connection hc hwrites other found hfound hne haddr hlive

theorem not_live {connection : PeerConnection} (hphase : connection.phase = .handshaking ∨
    connection.phase = .closing ∨ connection.phase = .ended) : ¬Live connection := by
  rintro (hadvertising | hlooping)
  · rw [hadvertising] at hphase
    simp at hphase
  · rw [hlooping] at hphase
    simp at hphase

theorem Registered.step (h : w.Registered) (halone : w.Alone event) : (w.step event).Registered := by
  have hmoved := step_moved w event
  generalize w.step event = w' at hmoved
  cases hmoved with
  | idle => exact h
  | @opened c remoteAddr hnone =>
    refine h.setConnection rfl (fun addr ↦ ?_) (fun _ _ _ ↦ .rfl) h.reported
    have hentry : ¬w.activeSessions.get addr = some c := by
      rw [h.entry_iff, hnone]
      exact fun ⟨_, hc, _⟩ ↦ nomatch hc
    exact iff_of_false hentry fun hlive ↦ not_live (.inl rfl) hlive.2
  | @installed c connection isPaired hc hphase =>
    have hself := h.entry_eq halone hc (by simp [Writes, hphase])
    have hget : ∀ addr, ((w.install c connection.remoteAddr).setPhase c connection
        (if isPaired then .advertising else .looping)).activeSessions.get addr =
          if addr = connection.remoteAddr then some c else w.activeSessions.get addr :=
      fun addr ↦ Dict.get_set _ _ _ _
    refine h.setConnection rfl (fun addr ↦ ?_) (fun addr other hother ↦ ?_) fun addr other hentry ↦ ?_
    · have hlive : Live { connection with phase := if isPaired then .advertising else .looping } := by
        cases isPaired
        · exact .inr rfl
        · exact .inl rfl
      rw [hget]
      split
      · next haddr => exact iff_of_true rfl ⟨haddr.symm, hlive⟩
      · next haddr =>
        rw [h.entry_self hc]
        exact iff_of_false (fun hentry ↦ not_live (.inl hphase) hentry.2) fun hentry ↦ haddr hentry.1.symm
    · rw [hget]
      split
      · next haddr =>
        subst haddr
        exact iff_of_false (fun heq ↦ hother (Option.some.inj heq).symm) fun hentry ↦ hother (hself _ hentry)
      · exact .rfl
    · rw [hget] at hentry
      change (w.reported.set connection.remoteAddr c).get addr = some other
      rw [Dict.get_set]
      split at hentry
      · next haddr => rw [if_pos haddr, hentry]
      · next haddr =>
        rw [if_neg haddr]
        exact h.reported addr other hentry
  | @looped c connection hc hphase =>
    refine h.setConnection rfl (fun addr ↦ ?_) (fun _ _ _ ↦ .rfl) h.reported
    refine (h.entry_self hc addr).trans (and_congr_right fun _ ↦ ?_)
    exact iff_of_true (.inl hphase) (.inr rfl)
  | @changed c connection hc hphase =>
    refine ⟨h.entry_iff, fun addr other hentry ↦ ?_⟩
    change (w.reported.set connection.remoteAddr c).get addr = some other
    rw [Dict.get_set]
    split
    · next haddr =>
      have hself := (h.entry_self hc addr).mpr ⟨haddr.symm, .inr hphase⟩
      exact hself.symm.trans hentry
    · exact h.reported addr other hentry
  | @removed c connection raised hc hphase =>
    have hwrites : Writes connection (.ends c raised) = true := by
      rcases hphase with hphase | hphase | hphase <;> simp [Writes, hphase]
    have hself := h.entry_eq halone hc hwrites
    have hget : ∀ addr, ((((if raised then w.report c connection.remoteAddr else w).remove
        connection.remoteAddr).setPhase c connection .closing).activeSessions.get addr) =
          if addr = connection.remoteAddr then none else w.activeSessions.get addr := by
      intro addr
      rw [← Dict.get_pop]
      cases raised <;> rfl
    refine h.setConnection (by cases raised <;> rfl) (fun addr ↦ ?_) (fun addr other hother ↦ ?_)
      fun addr other hentry ↦ ?_
    · rw [hget]
      refine iff_of_false ?_ fun hlive ↦ not_live (.inr (.inl rfl)) hlive.2
      split
      · exact fun heq ↦ nomatch heq
      · next haddr =>
        rw [h.entry_self hc]
        exact fun hentry ↦ haddr hentry.1.symm
    · rw [hget]
      split
      · next haddr =>
        subst haddr
        exact iff_of_false (fun heq ↦ nomatch heq) fun hentry ↦ hother (hself _ hentry)
      · exact .rfl
    · rw [hget] at hentry
      split at hentry
      · exact (nomatch hentry)
      · next haddr =>
        cases raised with
        | false => exact h.reported addr other hentry
        | true =>
          change (w.reported.set connection.remoteAddr c).get addr = some other
          rw [Dict.get_set_of_ne _ _ haddr]
          exact h.reported addr other hentry
  | @closed c connection hc hphase =>
    have hself := h.entry_eq halone hc (by simp [Writes, hphase])
    refine h.setConnection rfl (fun addr ↦ ?_) (fun _ _ _ ↦ .rfl) fun addr other hentry ↦ ?_
    · refine (h.entry_self hc addr).trans (and_congr_right fun _ ↦ ?_)
      exact iff_of_false (not_live (.inr (.inl hphase))) (not_live (.inr (.inr rfl)))
    · change (w.reported.set connection.remoteAddr c).get addr = some other
      rw [Dict.get_set]
      split
      · next haddr =>
        subst haddr
        exact congrArg some (hself _ hentry).symm
      · exact h.reported addr other hentry

theorem Registered.keepsOthers (h : w.Registered) (halone : w.Alone event) : w.KeepsOthers event := by
  intro addr other hentry hother
  have hmoved := step_moved w event
  generalize w.step event = w' at hmoved
  cases hmoved with
  | idle | opened | looped | changed | closed => exact hentry
  | @installed c connection isPaired hc hphase =>
    refine (Dict.get_set_of_ne _ _ fun haddr ↦ hother ?_).trans hentry
    exact h.entry_eq halone hc (by simp [Writes, hphase]) other (haddr ▸ hentry)
  | @removed c connection raised hc hphase =>
    have hne : addr ≠ connection.remoteAddr := by
      refine fun haddr ↦ hother (h.entry_eq halone hc ?_ other (haddr ▸ hentry))
      rcases hphase with hphase | hphase | hphase <;> simp [Writes, hphase]
    cases raised <;> exact (Dict.get_pop_of_ne _ hne).trans hentry

/-- An event that meets another live session of its address breaks the law. -/
theorem Registered.alone (h : w.Registered) (hkeeps : w.KeepsOthers event)
    (hreachable : (w.step event).Reachable) : w.Alone event := by
  refine alone_iff.mpr fun connection hc hwrites other found hfound hother haddr hlive ↦ ?_
  have hentry : w.activeSessions.get connection.remoteAddr = some other :=
    (h.entry_iff _ _).mpr ⟨found, hfound, haddr, hlive⟩
  have hkept := hkeeps _ _ hentry hother
  have hreported := hreachable.reported _ _ hkept
  have hmoved := step_moved w event
  generalize w.step event = w' at hmoved hkept hreported
  cases hmoved with
  | idle hidle => exact Bool.false_ne_true ((hidle connection hc).symm.trans hwrites)
  | opened hnone => exact (nomatch hnone.symm.trans hc)
  | looped | changed => exact (nomatch hwrites)
  | @installed c same isPaired hsame =>
    obtain rfl := Option.some.inj (hsame.symm.trans hc)
    have hinstalled : some c = some other := (Dict.get_set_self _ _ _).symm.trans hkept
    exact hother (Option.some.inj hinstalled).symm
  | @removed c same raised hsame =>
    obtain rfl := Option.some.inj (hsame.symm.trans hc)
    have hremoved : none = some other := by
      cases raised <;> exact (Dict.get_pop_self _ _).symm.trans hkept
    exact (nomatch hremoved)
  | @closed c same hsame =>
    obtain rfl := Option.some.inj (hsame.symm.trans hc)
    have hlate : some c = some other := (Dict.get_set_self _ _ _).symm.trans hreported
    exact hother (Option.some.inj hlate).symm

theorem Registered.lawful_iff (h : w.Registered) (events : List RegistryEvent) :
    w.Lawful events ↔ w.Separate events := by
  induction events generalizing w with
  | nil => exact .rfl
  | cons event events ih =>
    constructor
    · rintro ⟨hkeeps, hreachable, hlawful⟩
      have halone := h.alone hkeeps hreachable
      exact ⟨halone, (ih (h.step halone)).mp hlawful⟩
    · rintro ⟨halone, hseparate⟩
      have hstep := h.step halone
      exact ⟨h.keepsOthers halone, hstep.reachable, (ih hstep).mpr hseparate⟩

/-- The registry of a daemon whose sessions all have their handshakes behind them. -/
structure Projects (s : Daemon) (w : Registry) : Prop where
  active : w.activeSessions = s.activeSessions
  connection : ∀ ps connection, w.connections.get ps = some connection → ps < s.next ∧
    connection.remoteAddr = (s.sessions ps).remoteAddr ∧
      (connection.phase = .looping ↔ (s.sessions ps).loop ≠ .ended)
  running : ∀ ps, (s.sessions ps).loop ≠ .ended → (w.connections.get ps).isSome

namespace Projects

variable {s t u : Daemon}

theorem bookkept (h : Projects s w) (hkept : Daemon.Bookkept s t) : Projects t w where
  active := h.active.trans (Daemon.Bookkept.activeSessions hkept).symm
  connection ps connection hps := by
    rw [Daemon.Bookkept.remoteAddr hkept, Daemon.Bookkept.loop hkept]
    obtain ⟨hlt, hrest⟩ := h.connection ps connection hps
    exact ⟨hlt.trans_le (Daemon.Bookkept.next hkept), hrest⟩
  running ps hps := by
    rw [Daemon.Bookkept.loop hkept] at hps
    exact h.running ps hps

theorem suspended {kind : Daemon.Await → Prop} (h : Projects t w) (hleft : Daemon.Suspended kind t u) :
    Projects u w := by
  cases hleft with
  | returned => exact h
  | awaits =>
    refine ⟨h.active, fun ps connection hps ↦ ?_, h.running⟩
    obtain ⟨hlt, hrest⟩ := h.connection ps connection hps
    exact ⟨Nat.lt_succ_of_lt hlt, hrest⟩

theorem setLoop (h : Projects t w) {ps : ℕ} {loop : Daemon.LoopState}
    (hruns : (t.sessions ps).loop ≠ .ended) (hloop : loop ≠ .ended) : Projects (t.setLoop ps loop) w := by
  have hsession : ∀ other, ((t.setLoop ps loop).sessions other).remoteAddr = (t.sessions other).remoteAddr ∧
      (((t.setLoop ps loop).sessions other).loop ≠ .ended ↔ (t.sessions other).loop ≠ .ended) := by
    intro other
    change (Function.update t.sessions ps _ other).remoteAddr = _ ∧
      ((Function.update t.sessions ps _ other).loop ≠ .ended ↔ _)
    by_cases hother : other = ps
    · subst hother
      rw [Function.update_self]
      exact ⟨rfl, iff_of_true hloop hruns⟩
    · rw [Function.update_of_ne hother]
      exact ⟨rfl, .rfl⟩
  refine ⟨h.active, fun other connection hother ↦ ?_, fun other hother ↦ ?_⟩
  · rw [(hsession other).1, (hsession other).2]
    exact h.connection other connection hother
  · exact h.running other ((hsession other).2.mp hother)

/-- The end of a session loop is the end of its connection. -/
theorem ended (h : Projects t w) {ps : ℕ} (hruns : (t.sessions ps).loop ≠ .ended)
    (hend : t.LoopEnded ps u) : Projects u (w.step (.ends ps false)) := by
  obtain ⟨connection, hconnection⟩ := Option.isSome_iff_exists.mp (h.running ps hruns)
  obtain ⟨hlt, haddr, hphase⟩ := h.connection ps connection hconnection
  have hstep : w.step (.ends ps false) =
      (w.remove connection.remoteAddr).setPhase ps connection .closing := by
    simp [Registry.step, RegistryEvent.connection, hconnection, advance, hphase.mpr hruns]
  rw [hstep]
  refine ⟨?_, fun other found hother ↦ ?_, fun other hother ↦ ?_⟩
  · change w.activeSessions.pop connection.remoteAddr = _
    rw [hend.activeSessions, h.active, haddr]
  · change (w.connections.set ps _).get other = some found at hother
    rw [hend.remoteAddr]
    rw [Dict.get_set] at hother
    split at hother
    · next heq =>
      subst heq
      obtain rfl := Option.some.inj hother
      refine ⟨hlt.trans_le hend.next, haddr, iff_of_false (fun hlooping ↦ nomatch hlooping) ?_⟩
      exact fun hne ↦ hne hend.loop_self
    · next hne =>
      rw [hend.loop_of_ne other hne]
      obtain ⟨hotherLt, hrest⟩ := h.connection other found hother
      exact ⟨hotherLt.trans_le hend.next, hrest⟩
  · have hne : other ≠ ps := fun heq ↦ hother (heq ▸ hend.loop_self)
    rw [hend.loop_of_ne other hne] at hother
    change ((w.connections.set ps _).get other).isSome
    rw [Dict.get_set_of_ne _ _ hne]
    exact h.running other hother

/-- What becomes of a session loop, as events of its connection. -/
theorem settled (h : Projects t w) {ps : ℕ} (hruns : (t.sessions ps).loop ≠ .ended)
    {r : Except PyError Daemon.LoopFlow} (hend : Daemon.Settled ps r t u) :
    ∃ events, Projects u (w.run events) := by
  cases hend with
  | reads | awaits => exact ⟨[], h.setLoop hruns (by simp)⟩
  | ends _ hended => exact ⟨[.ends ps false], h.ended hruns hended⟩

/-- A completed handshake is a connection that opens, authenticates and starts its loop. -/
theorem connect (h : Projects s w) (remoteAddr : Text) (remote : RemotePeer) (paired : Bool)
    (sendFaults : List (Option ℕ)) :
    Projects (s.connect (Daemon.newSession remoteAddr remote paired sendFaults))
      (w.run [.opens s.next remoteAddr, .authenticated s.next paired, .advertised s.next]) := by
  have hfresh : w.connections.get s.next = none := by
    by_contra hne
    obtain ⟨connection, hconnection⟩ := Option.ne_none_iff_exists'.mp hne
    exact (h.connection _ _ hconnection).1.false
  have hopened : w.step (.opens s.next remoteAddr) =
      { w with connections := w.connections.set s.next ⟨remoteAddr, .handshaking⟩ } := by
    simp [Registry.step, RegistryEvent.connection, hfresh]
  generalize hw' : w.run [.opens s.next remoteAddr, .authenticated s.next paired, .advertised s.next] = w'
  obtain ⟨hactive, hself, hother⟩ :
      w'.activeSessions = w.activeSessions.set remoteAddr s.next ∧
        w'.connections.get s.next = some ⟨remoteAddr, .looping⟩ ∧
          ∀ c, c ≠ s.next → w'.connections.get c = w.connections.get c := by
    rw [← hw', Registry.run, List.foldl_cons, hopened]
    cases paired <;>
      simp +contextual [Registry.step, RegistryEvent.connection, advance, install, report, setPhase,
        Dict.get_set]
  have hsession : ∀ ps, ps ≠ s.next →
      (s.connect (Daemon.newSession remoteAddr remote paired sendFaults)).sessions ps = s.sessions ps :=
    fun ps hps ↦ Function.update_of_ne hps _ _
  have hnew : (s.connect (Daemon.newSession remoteAddr remote paired sendFaults)).sessions s.next =
      Daemon.newSession remoteAddr remote paired sendFaults := Function.update_self ..
  refine ⟨?_, fun ps connection hps ↦ ?_, fun ps hps ↦ ?_⟩
  · rw [hactive, h.active]
    rfl
  · by_cases heq : ps = s.next
    · subst heq
      obtain rfl := Option.some.inj (hself.symm.trans hps)
      rw [hnew]
      exact ⟨Nat.lt_succ_self _, rfl, iff_of_true rfl (by simp [Daemon.newSession])⟩
    · rw [hother ps heq] at hps
      rw [hsession ps heq]
      obtain ⟨hlt, hrest⟩ := h.connection ps connection hps
      exact ⟨Nat.lt_succ_of_lt hlt, hrest⟩
  · by_cases heq : ps = s.next
    · rw [heq, hself]
      rfl
    · rw [hsession ps heq] at hps
      rw [hother ps heq]
      exact h.running ps hps

theorem step (h : Projects s w) (event : Daemon.Event) : ∃ events, Projects (s.step event) (w.run events) := by
  have hmove := Daemon.step_move s event
  generalize s.step event = u at hmove
  cases hmove with
  | idle => exact ⟨[], h⟩
  | connected => exact ⟨_, h.connect _ _ _ _⟩
  | framed hreading hframe hend =>
    refine (h.bookkept hframe.bookkept).settled ?_ hend
    rw [Daemon.Bookkept.loop hframe.bookkept, hreading]
    exact fun heq ↦ nomatch heq
  | handled hawait hhandler hend =>
    refine (h.bookkept hhandler.bookkept).settled ?_ hend
    rw [Daemon.Bookkept.loop hhandler.bookkept, hawait]
    exact fun heq ↦ nomatch heq
  | ended hreading hend =>
    exact ⟨[.ends _ false], h.ended (by rw [hreading]; exact fun heq ↦ nomatch heq) hend⟩
  | @resumed task _ _ _ _ _ _ hawait hleft =>
    have hpopped : Projects { s with tasks := s.tasks.pop task } w := ⟨h.active, h.connection, h.running⟩
    exact ⟨[], (hpopped.bookkept hawait.bookkept).suspended hleft⟩
  | expired _ hexpiry hleft =>
    exact ⟨[], ((h.bookkept (Daemon.bookkept_mapLedger s _)).bookkept hexpiry.bookkept).suspended hleft⟩
  | called hcall hleft => exact ⟨[], (h.bookkept hcall.bookkept).suspended hleft⟩

end Projects

/-- The active sessions of every run of the daemon are those of a run of the registry. -/
theorem daemon_simulated {s : Daemon} (hstarted : s.Started) (events : List Daemon.Event) :
    ∃ registryEvents, Projects (s.run events) (empty.run registryEvents) := by
  have hsteps : ∀ events (s : Daemon) before, Projects s (empty.run before) →
      ∃ after, Projects (s.run events) (empty.run after) := by
    intro events
    induction events with
    | nil => exact fun s before h ↦ ⟨before, h⟩
    | cons event events ih =>
      intro s before h
      obtain ⟨after, hafter⟩ := h.step event
      refine ih (s.step event) (before ++ after) ?_
      rw [Registry.run, List.foldl_append]
      exact hafter
  refine hsteps events s [] ⟨hstarted.active.symm, fun _ _ hnone ↦ (nomatch hnone), fun ps hps ↦ ?_⟩
  exact absurd (hstarted.loops ps) hps

/-! ## Two connections of one address -/

/-- Two connections to one peer: the second replaces the entry of the first, and the end of the first
removes the entry of the second. -/
def twoConnections : List RegistryEvent :=
  [.opens 0 (lit "10.0.0.2:4000"), .opens 1 (lit "10.0.0.2:4000"), .authenticated 0 true,
    .advertised 0, .authenticated 1 true, .advertised 1, .ends 0 false]

end Registry

end Ferry
