import Mathlib.Data.List.AList
import Ferry.Android.Metadata
import Ferry.Base.Machine
import Ferry.Base.Utf8

/-!
# Mirrored notifications

`FerryNotificationListenerService` with its deduplicator, the dispatcher and the sends that
`FerryControlClient` launches.  The callbacks of the listener come one after another on the main thread, a
flush comes from the session, and a launched send runs whenever it is scheduled.
-/

namespace Ferry

open Text Machine

namespace Kotlin

/-- `toByteArray(Charsets.UTF_8)`. -/
def toByteArray (t : Text) : Bytes :=
  (joinPairs t).flatMap fun c ↦ ((toChar? c).map String.utf8EncodeChar).getD [0x3F]

/-- `take`, which counts `Char`s: of a pair that is cut the high surrogate stays. -/
def take : ℕ → Text → Text
  | 0, _ => []
  | _, [] => []
  | n + 1, c :: rest =>
    if c.val < 0x10000 then c :: take n rest
    else match n with
      | 0 => [Fin.ofNat _ (0xD800 + (c.val - 0x10000) / 0x400)]
      | n + 1 => c :: take n rest

end Kotlin

open Kotlin

/-! ## Notifications -/

/-- What the listener reads of a notification; the ferry id is that of its key. -/
structure StatusBarNotification where
  ferryId : Text
  packageName : Text
  appLabel : Text
  title : Text
  body : Text
  postTime : ℤ
  category : Text

structure NotificationDTO where
  ferryId : Text
  packageName : Text
  appLabel : Text
  title : Text
  body : Text
  postedAt : ℤ
  category : Text
  isRemove : Bool

/-- The payload of a NOTIFICATION_POST or a NOTIFICATION_REMOVE. -/
inductive NotificationMessage
  | post (ferryId package appLabel title body : Text) (postedAt : ℤ) (category : Text)
  | remove (ferryId : Text)

def NotificationMessage.ferryId : NotificationMessage → Text
  | .post ferryId .. => ferryId
  | .remove ferryId => ferryId

/-- What a notification shows. -/
structure NotificationContent where
  ferryId : Text
  title : Text
  body : Text
  deriving DecidableEq

def StatusBarNotification.content (sbn : StatusBarNotification) : NotificationContent :=
  ⟨sbn.ferryId, sbn.title, sbn.body⟩

def NotificationDTO.content (dto : NotificationDTO) : NotificationContent :=
  ⟨dto.ferryId, dto.title, dto.body⟩

/-! ## The deduplicator -/

/-- `NotificationDeduplicator`.  An entry comes to the front of `cache` when it is accessed. -/
structure NotificationDeduplicator where
  cache : AList fun _ : Text ↦ Text

namespace NotificationDeduplicator

def maxEntries : ℕ := 200

def contentHash (title body : Text) : Text :=
  Sha256.hexdigest (toByteArray title ++ [0] ++ toByteArray body)

def get (d : NotificationDeduplicator) (ferryId : Text) : Option Text := d.cache.lookup ferryId

def remove (d : NotificationDeduplicator) (ferryId : Text) : NotificationDeduplicator :=
  ⟨d.cache.erase ferryId⟩

def withoutEldest (d : NotificationDeduplicator) : NotificationDeduplicator :=
  ⟨d.cache.entries.dropLast, d.cache.nodupKeys.sublist (List.dropLast_sublist _)⟩

/-- `cache[ferryId] = hash`, with `removeEldestEntry`. -/
def put (d : NotificationDeduplicator) (ferryId hash : Text) : NotificationDeduplicator :=
  let d : NotificationDeduplicator := ⟨d.cache.insert ferryId hash⟩
  if maxEntries < d.cache.entries.length then d.withoutEldest else d

def shouldSend (d : NotificationDeduplicator) (ferryId title body : Text) :
    Bool × NotificationDeduplicator :=
  let hash := contentHash title body
  (d.get ferryId ≠ some hash, d.put ferryId hash)

end NotificationDeduplicator

def NotificationContent.hash (c : NotificationContent) : Text :=
  NotificationDeduplicator.contentHash c.title c.body

/-! ## The dispatcher -/

namespace NotificationDispatcher

def burstMax : ℕ := 20
def burstTtlMs : ℤ := 60000

def notifMaxTitle : ℕ := 200
def notifMaxBody : ℕ := 1000
def notifMaxPkg : ℕ := 255
def notifMaxLabel : ℕ := 100

end NotificationDispatcher

open NotificationDispatcher

/-- What `send` makes of a notification. -/
def NotificationDTO.toMessage (dto : NotificationDTO) : NotificationMessage :=
  if dto.isRemove then .remove dto.ferryId
  else .post dto.ferryId (take notifMaxPkg dto.packageName) (take notifMaxLabel dto.appLabel)
    (take notifMaxTitle dto.title) (take notifMaxBody dto.body) dto.postedAt dto.category

/-- An entry of the burst buffer.  The calls of `enqueue` and `enqueueRemove` are numbered. -/
structure BufferedEntry where
  number : ℕ
  dto : NotificationDTO
  enqueuedAt : ℤ

/-- A send that `FerryControlClient` launched, with the number of the call that it comes from. -/
structure LaunchedSend where
  number : ℕ
  message : NotificationMessage

/-- The call of the dispatcher that a callback is about to make. -/
inductive DispatcherCall
  | enqueue (dto : NotificationDTO)
  | enqueueRemove (ferryId : Text)

/-- What a call of the dispatcher reads: the clock, at its start and for a new entry, whether the session
is ESTABLISHED and the peer supports notifications, and by the number of what is sent whether the client
still has a session and an output for it. -/
structure DispatcherReadings where
  now : ℤ
  enqueuedAt : ℤ
  established : Bool
  peerSupportsNotify : Bool
  takes : ℕ → Bool

def DispatcherReadings.ready (r : DispatcherReadings) : Bool := r.established && r.peerSupportsNotify

/-- The listener, the dispatcher and the launched sends.  `handed` records what the session took and
what was not removed since. -/
structure NotificationMirror where
  deduplicator : NotificationDeduplicator
  calling : Option DispatcherCall
  buffer : List BufferedEntry
  enqueued : ℕ
  launched : List LaunchedSend
  wire : List LaunchedSend
  handed : List NotificationContent

namespace NotificationMirror

def new : NotificationMirror := ⟨⟨∅⟩, none, [], 0, [], [], []⟩

/-- `sendNotificationPost` and `sendNotificationRemove`. -/
def sendNotification (m : NotificationMirror) (takes : Bool) (number : ℕ)
    (message : NotificationMessage) : NotificationMirror :=
  if takes then { m with launched := m.launched ++ [⟨number, message⟩] } else m

/-- The dispatcher's `send`. -/
def send (r : DispatcherReadings) (m : NotificationMirror) (entry : BufferedEntry) : NotificationMirror :=
  let handed := if r.takes entry.number ∧ ¬entry.dto.isRemove then [entry.dto.content] else []
  { m.sendNotification (r.takes entry.number) entry.number entry.dto.toMessage with
    handed := m.handed ++ handed }

/-- The entries that `purgeExpired` leaves. -/
def purgeExpired (m : NotificationMirror) (now : ℤ) : List BufferedEntry :=
  m.buffer.filter fun entry ↦ ¬entry.enqueuedAt < now - burstTtlMs

def enqueue (m : NotificationMirror) (r : DispatcherReadings) (dto : NotificationDTO) : NotificationMirror :=
  let buffer := m.purgeExpired r.now
  let entry := ⟨m.enqueued, dto, r.enqueuedAt⟩
  if r.ready then
    send r (buffer.foldl (send r) { m with buffer := [], enqueued := m.enqueued + 1 }) entry
  else
    let room := if burstMax ≤ buffer.length then buffer.tail else buffer
    { m with buffer := room ++ [entry], enqueued := m.enqueued + 1 }

def flush (m : NotificationMirror) (r : DispatcherReadings) : NotificationMirror :=
  let buffer := m.purgeExpired r.now
  if r.ready then buffer.foldl (send r) { m with buffer := [] } else { m with buffer }

def enqueueRemove (m : NotificationMirror) (r : DispatcherReadings) (ferryId : Text) : NotificationMirror :=
  let waiting := { m with
    buffer := m.buffer.filter (·.dto.ferryId ≠ ferryId), enqueued := m.enqueued + 1 }
  if r.ready then waiting.sendNotification (r.takes m.enqueued) m.enqueued (.remove ferryId) else waiting

/-! ## The listener -/

def toDTO (sbn : StatusBarNotification) : NotificationDTO :=
  ⟨sbn.ferryId, sbn.packageName, sbn.appLabel, sbn.title, sbn.body, sbn.postTime, sbn.category, false⟩

/-- `onNotificationPosted` behind its filters, up to the call of the dispatcher. -/
def onNotificationPosted (m : NotificationMirror) (sbn : StatusBarNotification) : NotificationMirror :=
  let (sends, deduplicator) := m.deduplicator.shouldSend sbn.ferryId sbn.title sbn.body
  { m with deduplicator, calling := if sends then some (.enqueue (toDTO sbn)) else none }

/-- `onNotificationRemoved` up to the call of the dispatcher.  Without the feature or the dispatcher the
listener does nothing, but the notification is removed all the same. -/
def onNotificationRemoved (m : NotificationMirror) (handled : Bool) (ferryId : Text) :
    NotificationMirror :=
  let removed := { m with handed := m.handed.filter (·.ferryId ≠ ferryId) }
  if handled then
    { removed with
      deduplicator := m.deduplicator.remove ferryId, calling := some (.enqueueRemove ferryId) }
  else removed

/-- What can happen: a callback begins, it calls the dispatcher, the session flushes, or a launched send
runs.  `handled` says that the feature is enabled, that a posted notification passes the filter, and that
there is a dispatcher. -/
inductive Event
  | posted (handled : Bool) (sbn : StatusBarNotification)
  | removed (handled : Bool) (ferryId : Text)
  | call (r : DispatcherReadings)
  | flush (r : DispatcherReadings)
  | run (i : ℕ) (written : Bool)

def step (m : NotificationMirror) : Event → NotificationMirror
  | .posted handled sbn =>
    if m.calling.isNone ∧ handled then m.onNotificationPosted sbn else m
  | .removed handled ferryId => if m.calling.isNone then m.onNotificationRemoved handled ferryId else m
  | .call r => match m.calling with
    | none => m
    | some (.enqueue dto) => { m.enqueue r dto with calling := none }
    | some (.enqueueRemove ferryId) => { m.enqueueRemove r ferryId with calling := none }
  | .flush r => m.flush r
  | .run i written => match m.launched[i]? with
    | none => m
    | some sent =>
      { m with
        launched := m.launched.eraseIdx i
        wire := if written then m.wire ++ [sent] else m.wire }

end NotificationMirror

end Ferry
