import Ferry.Android.Notifications

/-!
# The order and the content of mirrored notifications

For every notification the messages keep the order of the dispatcher's calls as long as a launched send
waits for the older ones of its notification.  The deduplicator suppresses only what the session took as
long as no content that it remembers is lost from the burst buffer.
-/

namespace Ferry

open Machine NotificationDispatcher

namespace NotificationMirror

variable {m : NotificationMirror}

/-! ## The properties -/

/-- The messages on the wire of each notification are in the order of the calls. -/
def InOrder (m : NotificationMirror) : Prop :=
  m.wire.Pairwise fun sent later ↦ sent.message.ferryId = later.message.ferryId → sent.number < later.number

instance (m : NotificationMirror) : Decidable m.InOrder := inferInstanceAs (Decidable (List.Pairwise _ _))

/-- A notification that the deduplicator suppresses was handed to the session with this content. -/
def SuppressesHanded (m : NotificationMirror) : Event → Prop
  | .posted handled sbn => m.calling.isNone → handled = true →
    (m.deduplicator.shouldSend sbn.ferryId sbn.title sbn.body).1 = false → sbn.content ∈ m.handed
  | .removed .. | .call _ | .flush _ | .run .. => True

/-- What the mirroring promises of a step. -/
def Mirrors (m : NotificationMirror) (event : Event) : Prop :=
  m.SuppressesHanded event ∧ (m.step event).InOrder

/-! ## The condition -/

/-- The deduplicator remembers the content, which the session has not taken. -/
def NeedsSending (m : NotificationMirror) (dto : NotificationDTO) : Prop :=
  m.deduplicator.get dto.ferryId = some dto.content.hash ∧ dto.content ∉ m.handed

/-- The entries that a flush sends or keeps. -/
def keptByFlush (m : NotificationMirror) (r : DispatcherReadings) : List BufferedEntry :=
  (m.purgeExpired r.now).filter fun entry ↦ r.ready → r.takes entry.number

/-- The entries that `enqueue` sends or keeps. -/
def keptByEnqueue (m : NotificationMirror) (r : DispatcherReadings) (dto : NotificationDTO) :
    List BufferedEntry :=
  let buffer := m.purgeExpired r.now
  let entry := ⟨m.enqueued, dto, r.enqueuedAt⟩
  if r.ready then (buffer ++ [entry]).filter fun entry ↦ r.takes entry.number
  else (if burstMax ≤ buffer.length then buffer.tail else buffer) ++ [entry]

/-- The contents that were handed over, that wait in the buffer, or that a callback is about to enqueue. -/
def contents (m : NotificationMirror) : List NotificationContent :=
  m.handed ++ m.buffer.map (·.dto.content) ++
    match m.calling with
    | some (.enqueue dto) => [dto.content]
    | _ => []

/-- The dispatcher's call sends or keeps every remembered content that the session has not taken. -/
def RetainsCall (m : NotificationMirror) (r : DispatcherReadings) : DispatcherCall → Prop
  | .enqueue dto =>
    (∀ entry ∈ m.buffer, m.NeedsSending entry.dto →
      entry.dto.content ∈ (m.keptByEnqueue r dto).map (·.dto.content)) ∧
    (m.NeedsSending dto → dto.content ∈ (m.keptByEnqueue r dto).map (·.dto.content))
  | .enqueueRemove _ => True

/-- No content that the deduplicator remembers is lost: neither by expiry or overflow, nor by a send for
which the session is gone.  What is posted again while it waits was handed over before, no other content has
its digest, and a removal that is ignored is of a notification that the deduplicator has forgotten. -/
def Retains (m : NotificationMirror) : Event → Prop
  | .posted handled sbn => m.calling.isNone → handled = true →
    m.deduplicator.get sbn.ferryId = some sbn.content.hash →
    (sbn.content ∈ m.buffer.map (·.dto.content) → sbn.content ∈ m.handed) ∧
    ∀ c ∈ m.contents, c.ferryId = sbn.ferryId → c.hash = sbn.content.hash → c = sbn.content
  | .removed handled ferryId => m.calling.isNone → handled = false → m.deduplicator.get ferryId = none
  | .call r => ∀ call ∈ m.calling, m.RetainsCall r call
  | .flush r => ∀ entry ∈ m.buffer, m.NeedsSending entry.dto →
    entry.dto.content ∈ (m.keptByFlush r).map (·.dto.content)
  | .run .. => True

/-- A send is written after the older ones of its notification. -/
def InTurn (m : NotificationMirror) : Event → Prop
  | .run i written => written = true → ∀ sent ∈ m.launched[i]?, ∀ older ∈ m.launched.take i,
    older.message.ferryId ≠ sent.message.ferryId
  | .posted .. | .removed .. | .call _ | .flush _ => True

def Careful (m : NotificationMirror) (event : Event) : Prop := m.Retains event ∧ m.InTurn event

instance decidableSuppressesHanded (m : NotificationMirror) : ∀ event, Decidable (m.SuppressesHanded event)
  | .posted .. => inferInstanceAs (Decidable (_ → _ → _ → _ ∈ _))
  | .removed .. | .call _ | .flush _ | .run .. => isTrue trivial

instance (m : NotificationMirror) (event : Event) : Decidable (m.Mirrors event) :=
  inferInstanceAs (Decidable (_ ∧ _))

instance (m : NotificationMirror) (dto : NotificationDTO) : Decidable (m.NeedsSending dto) :=
  inferInstanceAs (Decidable (_ ∧ _))

instance decidableRetainsCall (m : NotificationMirror) (r : DispatcherReadings) :
    ∀ call, Decidable (m.RetainsCall r call)
  | .enqueue _ => inferInstanceAs (Decidable ((∀ entry ∈ m.buffer, _ → _ ∈ _) ∧ (_ → _ ∈ _)))
  | .enqueueRemove _ => isTrue trivial

instance decidableRetains (m : NotificationMirror) : ∀ event, Decidable (m.Retains event)
  | .posted .. => inferInstanceAs (Decidable (_ → _ → _ → (_ ∈ _ → _ ∈ _) ∧ ∀ c ∈ m.contents, _ → _ → _ = _))
  | .removed .. => inferInstanceAs (Decidable (_ → _ → _ = none))
  | .call r => inferInstanceAs (Decidable (∀ call ∈ m.calling, m.RetainsCall r call))
  | .flush _ => inferInstanceAs (Decidable (∀ entry ∈ m.buffer, _ → _ ∈ _))
  | .run .. => isTrue trivial

instance decidableInTurn (m : NotificationMirror) : ∀ event, Decidable (m.InTurn event)
  | .run i _ => inferInstanceAs
      (Decidable (_ → ∀ sent ∈ m.launched[i]?, ∀ older ∈ m.launched.take i, _ ≠ _))
  | .posted .. | .removed .. | .call _ | .flush _ => isTrue trivial

instance (m : NotificationMirror) (event : Event) : Decidable (m.Careful event) :=
  inferInstanceAs (Decidable (_ ∧ _))

/-! ## What the dispatcher changes -/

end NotificationMirror

def LaunchedSend.ticket (sent : LaunchedSend) : ℕ × Text := (sent.number, sent.message.ferryId)

def BufferedEntry.ticket (entry : BufferedEntry) : ℕ × Text := (entry.number, entry.dto.ferryId)

def BufferedEntry.toLaunched (entry : BufferedEntry) : LaunchedSend := ⟨entry.number, entry.dto.toMessage⟩

@[simp] theorem NotificationDTO.ferryId_toMessage (dto : NotificationDTO) :
    dto.toMessage.ferryId = dto.ferryId := by
  unfold toMessage
  split <;> rfl

@[simp] theorem BufferedEntry.ticket_toLaunched (entry : BufferedEntry) :
    entry.toLaunched.ticket = entry.ticket := by
  simp [toLaunched, LaunchedSend.ticket, ticket]

namespace NotificationMirror

variable {m : NotificationMirror}

/-- The sends of entries in turn. -/
theorem foldl_send (r : DispatcherReadings) (entries : List BufferedEntry) (m : NotificationMirror) :
    entries.foldl (send r) m =
      { m with
        launched := m.launched ++ (entries.filter (r.takes ·.number)).map BufferedEntry.toLaunched
        handed := m.handed ++
          (entries.filter fun e ↦ r.takes e.number ∧ ¬e.dto.isRemove).map (·.dto.content) } := by
  induction entries generalizing m with
  | nil => simp
  | cons entry entries ih =>
    rw [List.foldl_cons, ih, send, sendNotification]
    by_cases htakes : r.takes entry.number = true
    · by_cases hremove : entry.dto.isRemove = true
      · simp [htakes, hremove, BufferedEntry.toLaunched]
      · simp [htakes, hremove, BufferedEntry.toLaunched]
    · simp [htakes]

/-- The entry of a new notification. -/
def newEntry (m : NotificationMirror) (r : DispatcherReadings) (dto : NotificationDTO) : BufferedEntry :=
  ⟨m.enqueued, dto, r.enqueuedAt⟩

theorem enqueue_of_ready {r : DispatcherReadings} (h : r.ready = true) (dto : NotificationDTO) :
    m.enqueue r dto = (m.purgeExpired r.now ++ [m.newEntry r dto]).foldl (send r)
      { m with buffer := [], enqueued := m.enqueued + 1 } := by
  simp [enqueue, newEntry, h]

/-! ## The order -/

/-- The calls that have left a message on the wire, a send or an entry of the buffer. -/
def tickets (m : NotificationMirror) : List (ℕ × Text) :=
  m.wire.map LaunchedSend.ticket ++ (m.launched.map LaunchedSend.ticket ++ m.buffer.map BufferedEntry.ticket)

/-- Of one notification, the earlier call. -/
def Before (t u : ℕ × Text) : Prop := t.2 = u.2 → t.1 < u.1

/-- What is written, launched and buffered for each notification is in the order of the calls. -/
def Ordered (m : NotificationMirror) : Prop :=
  m.tickets.Pairwise Before ∧ ∀ t ∈ m.tickets, t.1 < m.enqueued

/-- What belongs to none of the notifications behind it may come before them. -/
theorem pairwise_insert {before after : List (ℕ × Text)} {t : ℕ × Text}
    (h : (before ++ after).Pairwise Before) (hbefore : ∀ u ∈ before, Before u t)
    (hafter : ∀ u ∈ after, Before t u) : (before ++ t :: after).Pairwise Before := by
  rw [List.pairwise_append] at h ⊢
  obtain ⟨hb, ha, hba⟩ := h
  refine ⟨hb, List.pairwise_cons.mpr ⟨hafter, ha⟩, fun u hu v hv ↦ ?_⟩
  rcases List.mem_cons.mp hv with rfl | hv
  · exact hbefore u hu
  · exact hba u hu v hv

/-- The oldest of a notification may overtake what belongs to others. -/
theorem pairwise_overtake {front older newer : List (ℕ × Text)} {t : ℕ × Text}
    (h : (front ++ (older ++ t :: newer)).Pairwise Before) (hothers : ∀ u ∈ older, u.2 ≠ t.2) :
    (front ++ t :: (older ++ newer)).Pairwise Before := by
  obtain ⟨-, hlater, hfront⟩ := List.pairwise_append.mp h
  obtain ⟨-, ht, -⟩ := List.pairwise_append.mp hlater
  refine pairwise_insert (h.sublist ?_) (fun u hu ↦ hfront u hu t ?_) fun u hu ↦ ?_
  · exact (List.Sublist.refl _).append ((List.Sublist.refl _).append (List.sublist_cons_self _ _))
  · exact List.mem_append_right _ List.mem_cons_self
  · rcases List.mem_append.mp hu with hu | hu
    · exact fun heq ↦ absurd heq.symm (hothers u hu)
    · exact (List.pairwise_cons.mp ht).1 u hu

theorem Ordered.inOrder (h : m.Ordered) : m.InOrder :=
  List.pairwise_map.mp (h.1.sublist (List.sublist_append_left _ _))

theorem Ordered.sublist {m' : NotificationMirror} (h : m.Ordered) (hsub : m'.tickets.Sublist m.tickets)
    (henqueued : m'.enqueued = m.enqueued) : m'.Ordered :=
  ⟨h.1.sublist hsub, fun t ht ↦ henqueued ▸ h.2 t (hsub.subset ht)⟩

/-- A call comes after all earlier ones. -/
theorem Ordered.append {m' : NotificationMirror} (h : m.Ordered) (ferryId : Text)
    (hsub : m'.tickets.Sublist (m.tickets ++ [(m.enqueued, ferryId)]))
    (henqueued : m'.enqueued = m.enqueued + 1) : m'.Ordered := by
  refine ⟨List.Pairwise.sublist hsub ?_, fun t ht ↦ ?_⟩
  · rw [List.pairwise_append]
    refine ⟨h.1, List.pairwise_singleton _ _, fun t ht u hu _ ↦ ?_⟩
    rw [List.mem_singleton.mp hu]
    exact h.2 t ht
  · rw [henqueued]
    rcases List.mem_append.mp (hsub.subset ht) with hold | hnew
    · exact (h.2 t hold).trans (Nat.lt_succ_self _)
    · rw [List.mem_singleton.mp hnew]
      exact Nat.lt_succ_self _

/-- Sending entries of the buffer keeps them behind what was launched before. -/
theorem tickets_foldl_send_sublist (r : DispatcherReadings) {entries kept : List BufferedEntry}
    (h : entries.Sublist kept) (hbuffer : m.buffer = []) :
    (entries.foldl (send r) m).tickets.Sublist
      (m.wire.map LaunchedSend.ticket ++
        (m.launched.map LaunchedSend.ticket ++ kept.map BufferedEntry.ticket)) := by
  rw [foldl_send, tickets, hbuffer, List.map_nil, List.append_nil, List.map_append, List.map_map]
  refine (List.Sublist.refl _).append ((List.Sublist.refl _).append ?_)
  have hmap : LaunchedSend.ticket ∘ BufferedEntry.toLaunched = BufferedEntry.ticket :=
    funext BufferedEntry.ticket_toLaunched
  rw [hmap]
  exact (List.filter_sublist.trans h).map _

theorem purgeExpired_sublist (m : NotificationMirror) (now : ℤ) : (m.purgeExpired now).Sublist m.buffer :=
  List.filter_sublist

theorem Ordered.enqueue (h : m.Ordered) (r : DispatcherReadings) (dto : NotificationDTO) :
    (m.enqueue r dto).Ordered := by
  have hassoc : m.tickets ++ [(m.enqueued, dto.ferryId)] = m.wire.map LaunchedSend.ticket ++
      (m.launched.map LaunchedSend.ticket ++ (m.buffer ++ [m.newEntry r dto]).map BufferedEntry.ticket) := by
    simp [tickets, newEntry, BufferedEntry.ticket]
  by_cases hready : r.ready = true
  · rw [enqueue_of_ready hready]
    refine h.append dto.ferryId ?_ (by rw [foldl_send])
    rw [hassoc]
    exact tickets_foldl_send_sublist r ((m.purgeExpired_sublist r.now).append (List.Sublist.refl _)) rfl
  · have hroom : (if burstMax ≤ (m.purgeExpired r.now).length then (m.purgeExpired r.now).tail
        else m.purgeExpired r.now).Sublist m.buffer := by
      split
      · exact (List.tail_sublist _).trans (m.purgeExpired_sublist r.now)
      · exact m.purgeExpired_sublist r.now
    rw [NotificationMirror.enqueue, if_neg hready]
    refine h.append dto.ferryId ?_ rfl
    rw [hassoc, tickets]
    exact (List.Sublist.refl _).append ((List.Sublist.refl _).append
      ((hroom.append (List.Sublist.refl _)).map _))

theorem Ordered.flush (h : m.Ordered) (r : DispatcherReadings) : (m.flush r).Ordered := by
  rw [NotificationMirror.flush]
  split
  · exact h.sublist (tickets_foldl_send_sublist r (m.purgeExpired_sublist r.now) rfl) (by rw [foldl_send])
  · exact h.sublist ((List.Sublist.refl _).append ((List.Sublist.refl _).append
      ((m.purgeExpired_sublist r.now).map _))) rfl

/-- The removal of a notification overtakes only the entries of others. -/
theorem Ordered.enqueueRemove (h : m.Ordered) (r : DispatcherReadings) (ferryId : Text) :
    (m.enqueueRemove r ferryId).Ordered := by
  set waiting : NotificationMirror := { m with
    buffer := m.buffer.filter (·.dto.ferryId ≠ ferryId), enqueued := m.enqueued + 1 } with hwaiting
  have hsub : waiting.tickets.Sublist m.tickets :=
    (List.Sublist.refl _).append ((List.Sublist.refl _).append (List.filter_sublist.map _))
  have hordered : waiting.Ordered :=
    ⟨h.1.sublist hsub, fun t ht ↦ (h.2 t (hsub.subset ht)).trans (Nat.lt_succ_self _)⟩
  have hassoc : waiting.tickets = (m.wire.map LaunchedSend.ticket ++ m.launched.map LaunchedSend.ticket) ++
      waiting.buffer.map BufferedEntry.ticket := (List.append_assoc _ _ _).symm
  rw [NotificationMirror.enqueueRemove, ← hwaiting]
  split
  · rw [sendNotification]
    split
    · set sent : NotificationMirror :=
        { waiting with launched := waiting.launched ++ [⟨m.enqueued, .remove ferryId⟩] }
      have htickets : sent.tickets = (m.wire.map LaunchedSend.ticket ++ m.launched.map LaunchedSend.ticket) ++
          (m.enqueued, ferryId) :: waiting.buffer.map BufferedEntry.ticket := by
        simp [sent, tickets, waiting, LaunchedSend.ticket, NotificationMessage.ferryId]
      have hnew : ∀ t ∈ waiting.tickets, t.1 < m.enqueued := fun t ht ↦ h.2 t (hsub.subset ht)
      rw [Ordered, htickets]
      rw [hassoc] at hnew
      refine ⟨pairwise_insert (hassoc ▸ hordered.1)
        (fun u hu _ ↦ hnew u (List.mem_append_left _ hu)) fun u hu heq ↦ ?_, fun t ht ↦ ?_⟩
      · obtain ⟨entry, hentry, rfl⟩ := List.mem_map.mp hu
        exact absurd heq.symm (of_decide_eq_true (List.mem_filter.mp hentry).2)
      · rcases List.mem_append.mp ht with ht | ht
        · exact (hnew t (List.mem_append_left _ ht)).trans (Nat.lt_succ_self _)
        · rcases List.mem_cons.mp ht with rfl | ht
          · exact Nat.lt_succ_self _
          · exact (hnew t (List.mem_append_right _ ht)).trans (Nat.lt_succ_self _)
    · exact hordered
  · exact hordered

/-- A send that is written is the oldest of its notification. -/
theorem Ordered.run (h : m.Ordered) {i : ℕ} {written : Bool} (hturn : m.InTurn (.run i written)) :
    (m.step (.run i written)).Ordered := by
  rw [step]
  split
  · exact h
  · next sent hsent =>
    obtain ⟨hi, hget⟩ := List.getElem?_eq_some_iff.mp hsent
    set older := m.launched.take i with holder
    set newer := m.launched.drop (i + 1) with hnewer
    have hsplit : m.launched = older ++ sent :: newer := by
      rw [holder, hnewer, ← hget, List.getElem_cons_drop, List.take_append_drop]
    have herase : m.launched.eraseIdx i = older ++ newer := List.eraseIdx_eq_take_drop_succ _ _
    cases written with
    | false =>
      refine h.sublist ?_ rfl
      simp only [tickets]
      exact (List.Sublist.refl _).append (((List.eraseIdx_sublist _ _).map _).append (List.Sublist.refl _))
    | true =>
      have hothers := hturn rfl sent hsent
      set run : NotificationMirror :=
        { m with launched := m.launched.eraseIdx i, wire := m.wire ++ [sent] }
      have hrun : run.tickets = m.wire.map LaunchedSend.ticket ++ sent.ticket ::
          (older.map LaunchedSend.ticket ++
            (newer.map LaunchedSend.ticket ++ m.buffer.map BufferedEntry.ticket)) := by
        simp [run, tickets, herase]
      have htickets : m.tickets = m.wire.map LaunchedSend.ticket ++
          (older.map LaunchedSend.ticket ++ sent.ticket ::
            (newer.map LaunchedSend.ticket ++ m.buffer.map BufferedEntry.ticket)) := by
        rw [tickets, hsplit]
        simp
      have hperm : run.tickets.Perm m.tickets := by
        rw [hrun, htickets]
        exact List.Perm.append_left _ List.perm_middle.symm
      refine ⟨?_, fun t ht ↦ h.2 t (hperm.subset ht)⟩
      change run.tickets.Pairwise Before
      rw [hrun]
      refine pairwise_overtake (htickets ▸ h.1) fun u hu ↦ ?_
      obtain ⟨other, hother, rfl⟩ := List.mem_map.mp hu
      exact hothers other hother

theorem Ordered.step (h : m.Ordered) {event : Event} (hturn : m.InTurn event) :
    (m.step event).Ordered := by
  cases event with
  | posted handled sbn =>
    rw [NotificationMirror.step]
    split
    · exact h
    · exact h
  | removed handled ferryId =>
    rw [NotificationMirror.step, onNotificationRemoved]
    split
    · split
      · exact h
      · exact h
    · exact h
  | call r =>
    rw [NotificationMirror.step]
    split
    · exact h
    · exact h.enqueue r _
    · exact h.enqueueRemove r _
  | flush r => exact h.flush r
  | run i written => exact h.run hturn

/-! ## The deduplicator -/

end NotificationMirror

namespace NotificationDeduplicator

variable {d : NotificationDeduplicator}

theorem get_withoutEldest {ferryId hash : Text} (h : d.withoutEldest.get ferryId = some hash) :
    d.get ferryId = some hash :=
  AList.mem_lookup_iff.mpr (List.mem_of_mem_dropLast (AList.mem_lookup_iff.mp h))

/-- The deduplicator remembers the new digest, and of the others some. -/
theorem get_put {ferryId hash other known : Text} (h : (d.put ferryId hash).get other = some known) :
    other = ferryId ∧ known = hash ∨ other ≠ ferryId ∧ d.get other = some known := by
  have hinsert : (⟨d.cache.insert ferryId hash⟩ : NotificationDeduplicator).get other = some known := by
    simp only [put] at h
    split at h
    · exact get_withoutEldest h
    · exact h
  by_cases heq : other = ferryId
  · subst heq
    exact Or.inl ⟨rfl, (Option.some.inj ((AList.lookup_insert _).symm.trans hinsert)).symm⟩
  · exact Or.inr ⟨heq, (AList.lookup_insert_ne heq).symm.trans hinsert⟩

theorem get_remove {ferryId other known : Text} (h : (d.remove ferryId).get other = some known) :
    other ≠ ferryId ∧ d.get other = some known := by
  have hne : other ≠ ferryId := by
    rintro rfl
    exact nomatch (AList.lookup_erase _ _).symm.trans h
  exact ⟨hne, (AList.lookup_erase_ne hne).symm.trans h⟩

@[simp] theorem get_remove_self (d : NotificationDeduplicator) (ferryId : Text) :
    (d.remove ferryId).get ferryId = none :=
  AList.lookup_erase _ _

end NotificationDeduplicator

namespace NotificationMirror

variable {m : NotificationMirror}

/-! ## What is remembered -/

/-- Every digest that the deduplicator remembers is that of a content which was handed over, waits or is
about to be enqueued. -/
structure Known (m : NotificationMirror) : Prop where
  held : ∀ ferryId hash, m.deduplicator.get ferryId = some hash →
    ∃ c ∈ m.contents, c.ferryId = ferryId ∧ c.hash = hash
  posts : ∀ entry ∈ m.buffer, entry.dto.isRemove = false
  post : ∀ dto, m.calling = some (.enqueue dto) → dto.isRemove = false
  forgotten : ∀ ferryId, m.calling = some (.enqueueRemove ferryId) → m.deduplicator.get ferryId = none

theorem mem_contents {c : NotificationContent} : c ∈ m.contents ↔
    c ∈ m.handed ∨ (∃ entry ∈ m.buffer, entry.dto.content = c) ∨
      ∃ dto, m.calling = some (.enqueue dto) ∧ dto.content = c := by
  rw [contents, List.mem_append, List.mem_append, List.mem_map, or_assoc]
  refine or_congr_right (or_congr_right ?_)
  split
  · next dto hcalling => simp [hcalling, eq_comm]
  · next hcalling => simpa using fun dto h ↦ absurd h (hcalling dto)

/-- What was sent or kept is handed over or waits. -/
theorem held_enqueue {r : DispatcherReadings} {dto : NotificationDTO} (h : m.Known)
    (hpost : dto.isRemove = false) {entry : BufferedEntry} (hentry : entry ∈ m.keptByEnqueue r dto) :
    entry.dto.content ∈ (m.enqueue r dto).handed ∨
      ∃ kept ∈ (m.enqueue r dto).buffer, kept.dto.content = entry.dto.content := by
  by_cases hready : r.ready = true
  · left
    rw [enqueue_of_ready hready, foldl_send]
    rw [keptByEnqueue, if_pos hready] at hentry
    obtain ⟨hmem, htakes⟩ := List.mem_filter.mp hentry
    refine List.mem_append_right _ (List.mem_map.mpr ⟨entry, List.mem_filter.mpr ⟨hmem, ?_⟩, rfl⟩)
    have hremove : entry.dto.isRemove = false := by
      rcases List.mem_append.mp hmem with hold | hnew
      · exact h.posts entry ((m.purgeExpired_sublist r.now).subset hold)
      · rw [List.mem_singleton.mp hnew]
        exact hpost
    simpa [hremove] using htakes
  · right
    rw [enqueue, if_neg hready]
    rw [keptByEnqueue, if_neg hready] at hentry
    exact ⟨entry, hentry, rfl⟩

theorem held_flush {r : DispatcherReadings} (h : m.Known) {entry : BufferedEntry}
    (hentry : entry ∈ m.keptByFlush r) : entry.dto.content ∈ (m.flush r).handed ∨
      ∃ kept ∈ (m.flush r).buffer, kept.dto.content = entry.dto.content := by
  obtain ⟨hmem, htakes⟩ := List.mem_filter.mp hentry
  by_cases hready : r.ready = true
  · left
    rw [flush, if_pos hready, foldl_send]
    refine List.mem_append_right _ (List.mem_map.mpr ⟨entry, List.mem_filter.mpr ⟨hmem, ?_⟩, rfl⟩)
    have hremove := h.posts entry ((m.purgeExpired_sublist r.now).subset hmem)
    simpa [hremove, hready] using htakes
  · right
    rw [flush, if_neg hready]
    exact ⟨entry, hmem, rfl⟩

theorem handed_enqueue (r : DispatcherReadings) (dto : NotificationDTO) {c : NotificationContent}
    (h : c ∈ m.handed) : c ∈ (m.enqueue r dto).handed := by
  by_cases hready : r.ready = true
  · rw [enqueue_of_ready hready, foldl_send]
    exact List.mem_append_left _ h
  · rw [enqueue, if_neg hready]
    exact h

theorem handed_flush (r : DispatcherReadings) {c : NotificationContent} (h : c ∈ m.handed) :
    c ∈ (m.flush r).handed := by
  rw [flush]
  split
  · rw [foldl_send]
    exact List.mem_append_left _ h
  · exact h

/-- The dispatcher adds no entry but the new one. -/
theorem mem_buffer_enqueue {r : DispatcherReadings} {dto : NotificationDTO} {entry : BufferedEntry}
    (h : entry ∈ (m.enqueue r dto).buffer) : entry ∈ m.buffer ∨ entry.dto = dto := by
  by_cases hready : r.ready = true
  · rw [enqueue_of_ready hready, foldl_send] at h
    exact (List.not_mem_nil h).elim
  · rw [enqueue, if_neg hready] at h
    rcases List.mem_append.mp h with hold | hnew
    · left
      split at hold
      · exact (m.purgeExpired_sublist r.now).subset (List.mem_of_mem_tail hold)
      · exact (m.purgeExpired_sublist r.now).subset hold
    · right
      rw [List.mem_singleton.mp hnew]

theorem mem_buffer_flush {r : DispatcherReadings} {entry : BufferedEntry} (h : entry ∈ (m.flush r).buffer) :
    entry ∈ m.buffer := by
  rw [flush] at h
  split at h
  · rw [foldl_send] at h
    exact (List.not_mem_nil h).elim
  · exact (m.purgeExpired_sublist r.now).subset h

@[simp] theorem deduplicator_enqueue (r : DispatcherReadings) (dto : NotificationDTO) :
    (m.enqueue r dto).deduplicator = m.deduplicator := by
  by_cases hready : r.ready = true
  · rw [enqueue_of_ready hready, foldl_send]
  · rw [enqueue, if_neg hready]

@[simp] theorem deduplicator_flush (r : DispatcherReadings) :
    (m.flush r).deduplicator = m.deduplicator := by
  rw [flush]
  split
  · rw [foldl_send]
  · rfl

@[simp] theorem calling_flush (r : DispatcherReadings) : (m.flush r).calling = m.calling := by
  rw [flush]
  split
  · rw [foldl_send]
  · rfl

theorem enqueueRemove_eq (r : DispatcherReadings) (ferryId : Text) :
    (m.enqueueRemove r ferryId).deduplicator = m.deduplicator ∧
      (m.enqueueRemove r ferryId).handed = m.handed ∧
      (m.enqueueRemove r ferryId).buffer = m.buffer.filter (·.dto.ferryId ≠ ferryId) := by
  rw [enqueueRemove, sendNotification]
  split
  · split <;> exact ⟨rfl, rfl, rfl⟩
  · exact ⟨rfl, rfl, rfl⟩

theorem Known.posted (h : m.Known) (hcalling : m.calling = none) (sbn : StatusBarNotification) :
    (m.onNotificationPosted sbn).Known := by
  set posted := m.onNotificationPosted sbn with hposted
  have hheld : ∀ c ∈ m.contents, c ∈ posted.contents := fun c hc ↦ by
    rcases mem_contents.mp hc with hc | hc | ⟨dto, hdto, -⟩
    · exact mem_contents.mpr (Or.inl hc)
    · exact mem_contents.mpr (Or.inr (Or.inl hc))
    · exact nomatch hcalling.symm.trans hdto
  refine ⟨fun ferryId hash hget ↦ ?_, h.posts, fun dto hdto ↦ ?_, fun ferryId hremove ↦ ?_⟩
  · rcases NotificationDeduplicator.get_put hget with ⟨rfl, rfl⟩ | ⟨-, hold⟩
    · by_cases hremembered : m.deduplicator.get sbn.ferryId = some sbn.content.hash
      · obtain ⟨c, hc, hcontent⟩ := h.held _ _ hremembered
        exact ⟨c, hheld c hc, hcontent⟩
      · refine ⟨sbn.content, mem_contents.mpr (Or.inr (Or.inr ⟨toDTO sbn, ?_, rfl⟩)), rfl, rfl⟩
        exact if_pos (decide_eq_true hremembered)
    · obtain ⟨c, hc, hcontent⟩ := h.held _ _ hold
      exact ⟨c, hheld c hc, hcontent⟩
  · simp only [hposted, onNotificationPosted] at hdto
    split at hdto
    · obtain rfl := DispatcherCall.enqueue.inj (Option.some.inj hdto)
      rfl
    · exact nomatch hdto
  · simp only [hposted, onNotificationPosted] at hremove
    split at hremove
    · exact nomatch hremove
    · exact nomatch hremove

theorem Known.removed (h : m.Known) (hcalling : m.calling = none) {handled : Bool} {ferryId : Text}
    (hforgotten : handled = false → m.deduplicator.get ferryId = none) :
    (m.onNotificationRemoved handled ferryId).Known := by
  set removed := m.onNotificationRemoved handled ferryId with hremoved
  have hbuffer : removed.buffer = m.buffer := by
    rw [hremoved, onNotificationRemoved]
    split <;> rfl
  have hhanded : removed.handed = m.handed.filter (·.ferryId ≠ ferryId) := by
    rw [hremoved, onNotificationRemoved]
    split <;> rfl
  have hget : ∀ other hash, removed.deduplicator.get other = some hash →
      other ≠ ferryId ∧ m.deduplicator.get other = some hash := fun other hash hget ↦ by
    cases handled with
    | true => exact NotificationDeduplicator.get_remove hget
    | false =>
      refine ⟨?_, hget⟩
      rintro rfl
      exact nomatch (hforgotten rfl).symm.trans hget
  refine ⟨fun other hash hother ↦ ?_, hbuffer ▸ h.posts, fun dto hdto ↦ ?_, fun other hother ↦ ?_⟩
  · obtain ⟨hne, hold⟩ := hget other hash hother
    obtain ⟨c, hc, rfl, hhash⟩ := h.held other hash hold
    refine ⟨c, mem_contents.mpr ?_, rfl, hhash⟩
    rw [hhanded, hbuffer]
    rcases mem_contents.mp hc with hc | hc | ⟨dto, hdto, -⟩
    · exact Or.inl (List.mem_filter.mpr ⟨hc, decide_eq_true hne⟩)
    · exact Or.inr (Or.inl hc)
    · exact nomatch hcalling.symm.trans hdto
  · cases handled with
    | true => exact nomatch hdto
    | false => exact nomatch hcalling.symm.trans hdto
  · cases handled with
    | true =>
      obtain rfl := DispatcherCall.enqueueRemove.inj (Option.some.inj hother)
      exact NotificationDeduplicator.get_remove_self _ _
    | false => exact nomatch hcalling.symm.trans hother

/-- A remembered content that the call keeps is held afterwards. -/
theorem Known.enqueue (h : m.Known) {r : DispatcherReadings} {dto : NotificationDTO}
    (hcalling : m.calling = some (.enqueue dto)) (hretains : m.Retains (.call r)) :
    ({ m.enqueue r dto with calling := none } : NotificationMirror).Known := by
  obtain ⟨hwaiting, hnew⟩ := hretains _ hcalling
  have hpost := h.post dto hcalling
  refine ⟨fun ferryId hash hget ↦ ?_, fun entry hentry ↦ ?_, fun _ hdto ↦ (nomatch hdto),
    fun _ hremove ↦ (nomatch hremove)⟩
  · rw [deduplicator_enqueue] at hget
    obtain ⟨c, hc, rfl, rfl⟩ := h.held ferryId hash hget
    refine ⟨c, mem_contents.mpr ?_, rfl, rfl⟩
    by_cases hhanded : c ∈ m.handed
    · exact Or.inl (handed_enqueue r dto hhanded)
    · have hkept : c ∈ (m.keptByEnqueue r dto).map (·.dto.content) := by
        rcases mem_contents.mp hc with hc | ⟨entry, hentry, rfl⟩ | ⟨dto', hdto, rfl⟩
        · exact absurd hc hhanded
        · exact hwaiting entry hentry ⟨hget, hhanded⟩
        · obtain rfl := DispatcherCall.enqueue.inj (Option.some.inj (hcalling.symm.trans hdto))
          exact hnew ⟨hget, hhanded⟩
      obtain ⟨entry, hentry, rfl⟩ := List.mem_map.mp hkept
      exact (held_enqueue h hpost hentry).imp_right Or.inl
  · rcases mem_buffer_enqueue hentry with hold | rfl
    · exact h.posts entry hold
    · exact hpost

theorem Known.flush (h : m.Known) {r : DispatcherReadings} (hretains : m.Retains (.flush r)) :
    (m.flush r).Known := by
  refine ⟨fun ferryId hash hget ↦ ?_, fun entry hentry ↦ h.posts entry (mem_buffer_flush hentry),
    fun dto hdto ↦ h.post dto (calling_flush r ▸ hdto), fun ferryId hremove ↦ ?_⟩
  · rw [deduplicator_flush] at hget
    obtain ⟨c, hc, rfl, rfl⟩ := h.held ferryId hash hget
    refine ⟨c, mem_contents.mpr ?_, rfl, rfl⟩
    by_cases hhanded : c ∈ m.handed
    · exact Or.inl (handed_flush r hhanded)
    · rcases mem_contents.mp hc with hc | ⟨entry, hentry, rfl⟩ | ⟨dto, hdto, hcontent⟩
      · exact absurd hc hhanded
      · obtain ⟨kept, hkept, hcontent⟩ := List.mem_map.mp (hretains entry hentry ⟨hget, hhanded⟩)
        rw [← hcontent]
        exact (held_flush h hkept).imp_right Or.inl
      · exact Or.inr (Or.inr ⟨dto, (calling_flush r).trans hdto, hcontent⟩)
  · rw [deduplicator_flush]
    exact h.forgotten ferryId (calling_flush r ▸ hremove)

theorem Known.enqueueRemove (h : m.Known) (r : DispatcherReadings) {ferryId : Text}
    (hcalling : m.calling = some (.enqueueRemove ferryId)) :
    ({ m.enqueueRemove r ferryId with calling := none } : NotificationMirror).Known := by
  obtain ⟨hdeduplicator, hhanded, hbuffer⟩ := enqueueRemove_eq (m := m) r ferryId
  have hforgotten := h.forgotten ferryId hcalling
  refine ⟨fun other hash hget ↦ ?_, fun entry hentry ↦ ?_, fun _ hdto ↦ (nomatch hdto),
    fun _ hremove ↦ (nomatch hremove)⟩
  · rw [hdeduplicator] at hget
    obtain ⟨c, hc, rfl, rfl⟩ := h.held other hash hget
    refine ⟨c, mem_contents.mpr ?_, rfl, rfl⟩
    rw [hhanded, hbuffer]
    rcases mem_contents.mp hc with hc | ⟨entry, hentry, rfl⟩ | ⟨dto, hdto, -⟩
    · exact Or.inl hc
    · refine Or.inr (Or.inl ⟨entry, List.mem_filter.mpr ⟨hentry, decide_eq_true ?_⟩, rfl⟩)
      intro heq
      have hnone : m.deduplicator.get entry.dto.content.ferryId = none :=
        (congrArg m.deduplicator.get heq).trans hforgotten
      exact nomatch hnone.symm.trans hget
    · exact nomatch hcalling.symm.trans hdto
  · rw [hbuffer] at hentry
    exact h.posts entry (List.mem_filter.mp hentry).1

theorem Known.step (h : m.Known) {event : Event} (hretains : m.Retains event) : (m.step event).Known := by
  cases event with
  | posted handled sbn =>
    rw [NotificationMirror.step]
    split
    · next hfree => exact h.posted (Option.isNone_iff_eq_none.mp hfree.1) sbn
    · exact h
  | removed handled ferryId =>
    rw [NotificationMirror.step]
    split
    · next hfree => exact h.removed (Option.isNone_iff_eq_none.mp hfree) (hretains hfree)
    · exact h
  | call r =>
    rw [NotificationMirror.step]
    split
    · exact h
    · next dto hcalling => exact h.enqueue hcalling hretains
    · next ferryId hcalling => exact h.enqueueRemove r hcalling
  | flush r => exact h.flush hretains
  | run i written =>
    rw [NotificationMirror.step]
    split
    · exact h
    · exact ⟨h.held, h.posts, h.post, h.forgotten⟩

/-- What is suppressed was handed over. -/
theorem Known.suppressesHanded (h : m.Known) {event : Event} (hretains : m.Retains event) :
    m.SuppressesHanded event := by
  cases event with
  | posted handled sbn =>
    intro hfree hhandled hsuppressed
    have hremembered : m.deduplicator.get sbn.ferryId = some sbn.content.hash := by
      exact not_not.mp (of_decide_eq_false hsuppressed)
    obtain ⟨hwaiting, hcollision⟩ := hretains hfree hhandled hremembered
    obtain ⟨c, hc, hferryId, hhash⟩ := h.held _ _ hremembered
    have hcalling := Option.isNone_iff_eq_none.mp hfree
    obtain rfl := hcollision c hc hferryId hhash
    rcases mem_contents.mp hc with hhanded | ⟨entry, hentry, hcontent⟩ | ⟨dto, hdto, -⟩
    · exact hhanded
    · exact hwaiting (List.mem_map.mpr ⟨entry, hentry, hcontent⟩)
    · exact nomatch hcalling.symm.trans hdto
  | removed handled ferryId => trivial
  | call r => trivial
  | flush r => trivial
  | run i written => trivial

/-! ## Runs -/

theorem ordered_new : new.Ordered := ⟨List.Pairwise.nil, fun _ ht ↦ (nomatch ht)⟩

theorem known_new : new.Known where
  held _ _ h := nomatch h
  posts _ h := nomatch h
  post _ h := nomatch h
  forgotten _ h := nomatch h

/-- In every run whose steps are all careful, every message takes its place and only what was handed over
is suppressed. -/
theorem mirrors_of_careful {events : List Event} (h : Always step Careful new events) :
    Always step Mirrors new events := by
  refine always_of_invariant (P := fun m ↦ m.Ordered ∧ m.Known)
    (fun m event ⟨hordered, hknown⟩ ⟨hretains, hturn⟩ ↦ ?_) ⟨ordered_new, known_new⟩ h
  have hordered' := hordered.step hturn
  exact ⟨⟨hknown.suppressesHanded hretains, hordered'.inOrder⟩, hordered', hknown.step hretains⟩

def sampleNotification : StatusBarNotification :=
  ⟨Text.lit "n1", Text.lit "org.example", Text.lit "Example", Text.lit "Call", Text.lit "Missed", 5,
    Text.lit "call"⟩

/-- What the dispatcher reads while the session is up or down. -/
def readings (now : ℤ) (up : Bool) : DispatcherReadings := ⟨now, now, up, true, fun _ ↦ up⟩

/-- A notification is buffered, flushed, posted again, changed and removed. -/
def sampleMirroring : List Event :=
  [.posted true sampleNotification, .call (readings 0 false), .flush (readings 1 true),
    .posted true sampleNotification, .posted true { sampleNotification with body := Text.lit "Taken" },
    .call (readings 2 true), .removed true (Text.lit "n1"), .call (readings 3 true),
    .run 0 true, .run 0 true, .run 0 true]

theorem mirrors_of_careful_sampleMirroring : Always step Mirrors new sampleMirroring :=
  mirrors_of_careful (by decide +kernel)

/-- A content that expired in the buffer suppresses the notification when it is posted again, and the
removal of a notification can be written before it. -/
theorem expired_content_suppresses :
    ¬Always step Mirrors new [.posted true sampleNotification, .call (readings 0 false),
      .flush (readings 60001 true), .posted true sampleNotification] ∧
    ¬Always step Mirrors new [.posted true sampleNotification, .call (readings 0 true),
      .removed true (Text.lit "n1"), .call (readings 1 true), .run 1 true, .run 0 true] := by
  decide +kernel

end NotificationMirror

end Ferry
