import Mathlib.Data.List.Basic
import Ferry.Base.Machine

/-!
# Broadcasts to the clients

`FerryIPCServer` on its event loop.  Every callback of the service starts a broadcast, which writes to the
clients in turn and awaits each `drain`.  A `drain` returns at once, raises, or waits; those that wait at
one client are woken together, in the order in which they came.  A client is named by a number.
-/

namespace Ferry

open Machine

namespace Ipc

/-- A frame on the way to a client.  The callbacks of the service are numbered, and the number stands for
the message.  A reply answers another command than IPC_SUBSCRIBE. -/
inductive IpcFrame
  | snapshot
  | event (number : ℕ)
  | reply
  deriving DecidableEq

/-- `_handle_client` reads the next frame, awaits the `drain` of a frame that it sent, or has ended. -/
inductive HandlerState
  | reading
  | replying
  | ended
  deriving DecidableEq

/-- `_IPCClient`.  `joined` records how many frames were written and how many events emitted before the
first IPC_SUBSCRIBE. -/
structure IpcClient where
  closed : Bool
  handler : HandlerState
  written : List IpcFrame
  joined : Option (ℕ × ℕ)

/-- A broadcast that awaits a `drain`. -/
structure Broadcast where
  event : ℕ
  waitsAt : ℕ
  remaining : List ℕ
  dead : List ℕ
  deriving DecidableEq

/-- What a call of `drain` does. -/
inductive Drain
  | returns
  | raises
  | waits
  deriving DecidableEq

/-- `FerryIPCServer`.  `subscribed` is `_clients`, and `ready` holds the broadcasts that have not started.
The broadcasts that wait are in the order in which they began to. -/
structure IpcServer where
  clients : ℕ → IpcClient
  subscribed : List ℕ
  emitted : ℕ
  ready : List ℕ
  broadcasts : List Broadcast

namespace IpcServer

def new : IpcServer where
  clients := fun _ ↦ ⟨false, .reading, [], none⟩
  subscribed := []
  emitted := 0
  ready := []
  broadcasts := []

def onClient (s : IpcServer) (c : ℕ) (f : IpcClient → IpcClient) : IpcServer :=
  { s with clients := Function.update s.clients c (f (s.clients c)) }

/-- `writer.write`. -/
def write (s : IpcServer) (c : ℕ) (frame : IpcFrame) : IpcServer :=
  s.onClient c fun client ↦ { client with written := client.written ++ [frame] }

/-- `_closed = True`. -/
def close (s : IpcServer) (c : ℕ) : IpcServer := s.onClient c fun client ↦ { client with closed := true }

/-- The end of `broadcast`. -/
def removeDead (s : IpcServer) (dead : List ℕ) : IpcServer :=
  { s with subscribed := dead.foldl List.erase s.subscribed }

/-- The loop of `broadcast` over the clients that are left. -/
def serve (event : ℕ) : List ℕ → List ℕ → List Drain → IpcServer → IpcServer
  | [], dead, _, s => s.removeDead dead
  | c :: remaining, dead, drains, s =>
    if (s.clients c).closed then serve event remaining (dead ++ [c]) drains s
    else match drains with
      | .returns :: drains => serve event remaining dead drains (s.write c (.event event))
      | .raises :: drains =>
        serve event remaining (dead ++ [c]) drains ((s.write c (.event event)).close c)
      | _ =>
        let s := s.write c (.event event)
        { s with broadcasts := s.broadcasts ++ [⟨event, c, remaining, dead⟩] }

/-- `broadcast` up to its first `drain` that waits. -/
def start (s : IpcServer) (drains : List Drain) : IpcServer :=
  match s.ready with
  | [] => s
  | event :: ready => serve event s.subscribed [] drains { s with ready }

/-- The broadcasts that wait at a client. -/
def waiters (s : IpcServer) (c : ℕ) : List Broadcast := s.broadcasts.filter (·.waitsAt = c)

/-- The state in which a broadcast goes on after its `drain`. -/
def woken (s : IpcServer) (b : Broadcast) (failed : Bool) : IpcServer :=
  let s := { s with broadcasts := s.broadcasts.erase b }
  if failed then s.close b.waitsAt else s

/-- The clients that a broadcast has found closed when it goes on. -/
def deadOf (s : IpcServer) (b : Broadcast) : List ℕ :=
  if (s.clients b.waitsAt).closed then b.dead ++ [b.waitsAt] else b.dead

/-- A broadcast goes on. -/
def resume (s : IpcServer) (b : Broadcast) (failed : Bool) (drains : List Drain) : IpcServer :=
  serve b.event b.remaining ((s.woken b failed).deadOf b) drains (s.woken b failed)

/-- The broadcasts go on one after the other. -/
def resumeAll (failed : Bool) : List Broadcast → List (List Drain) → IpcServer → IpcServer
  | [], _, s => s
  | b :: bs, drains, s => resumeAll failed bs drains.tail (s.resume b failed (drains.headD []))

/-- A `drain` of the handler, which awaits it when it waits. -/
def drained (s : IpcServer) (c : ℕ) : Drain → IpcServer
  | .returns => s
  | .raises => s.close c
  | .waits => s.onClient c fun client ↦ { client with handler := .replying }

/-- `send` in the handler. -/
def reply (s : IpcServer) (c : ℕ) (frame : IpcFrame) (drain : Drain) : IpcServer :=
  if (s.clients c).closed then s else (s.write c frame).drained c drain

/-- The branch IPC_SUBSCRIBE. -/
def subscribe (s : IpcServer) (c : ℕ) (drain : Drain) : IpcServer :=
  let joined := ((s.clients c).written.length, s.emitted)
  let s := s.onClient c fun client ↦ { client with joined := client.joined.or (some joined) }
  reply { s with subscribed := s.subscribed ++ [c] } c .snapshot drain

/-- The end of `_handle_client`. -/
def endHandler (s : IpcServer) (c : ℕ) : IpcServer :=
  let s := s.onClient c fun client ↦ { client with closed := true, handler := .ended }
  { s with subscribed := s.subscribed.erase c }

end IpcServer

/-- A callback of the service, a broadcast that starts, the broadcasts at a client that are woken, a
message of a client, a handler whose `drain` returns, and the end of a connection. -/
inductive IpcEvent
  | emit
  | start (drains : List Drain)
  | wake (c : ℕ) (failed : Bool) (drains : List (List Drain))
  | subscribe (c : ℕ) (drain : Drain)
  | command (c : ℕ) (drain : Drain)
  | replied (c : ℕ) (failed : Bool)
  | disconnect (c : ℕ)

namespace IpcServer

def step (s : IpcServer) : IpcEvent → IpcServer
  | .emit => { s with emitted := s.emitted + 1, ready := s.ready ++ [s.emitted] }
  | .start drains => s.start drains
  | .wake c failed drains => resumeAll failed (s.waiters c) drains s
  | .subscribe c drain => if (s.clients c).handler = .reading then s.subscribe c drain else s
  | .command c drain => if (s.clients c).handler = .reading then s.reply c .reply drain else s
  | .replied c failed =>
    if (s.clients c).handler = .replying then
      let s := s.onClient c fun client ↦ { client with handler := .reading }
      if failed then s.close c else s
    else s
  | .disconnect c => s.endHandler c

/-! ## Delivery -/

/-- The events that were written to a client. -/
def eventsOf (s : IpcServer) (c : ℕ) : List ℕ :=
  (s.clients c).written.filterMap fun
    | .event number => some number
    | .snapshot | .reply => none

/-- No broadcast has events to write. -/
def Idle (s : IpcServer) : Prop := s.ready = [] ∧ s.broadcasts = []

/-- A connected client that subscribed before the event `first` was emitted gets the snapshot first, and
then the events from `first` on, each once and in their order, all of them when no broadcast is left. -/
def Delivers (s : IpcServer) : Prop :=
  ∀ c frames first, (s.clients c).closed = false → (s.clients c).joined = some (frames, first) →
    ((s.clients c).written.drop frames).head? = some .snapshot ∧
    ∃ n, first + n ≤ s.emitted ∧ (s.eventsOf c).filter (first ≤ ·) = List.range' first n ∧
      (s.Idle → first + n = s.emitted)

end IpcServer

end Ipc

end Ferry
