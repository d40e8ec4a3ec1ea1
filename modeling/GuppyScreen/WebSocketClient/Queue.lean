import GuppyScreen.Lib.Mailbox
import GuppyScreen.WebSocketClient

/-!
# What a drain dispatches (websocket_client.cpp, push and drain)

The queue and the batch of a client are a bounded mailbox, and its log is the history of
that mailbox. A push of libhv's thread, a drain that takes its batch and the begin of an
event are its operations; sends, registrations, the calls of one event and their
exceptions do not touch it.
-/

namespace GuppyScreen.WebSocketClient
open Lib

variable {Cb Co : Type} {wild : ℚ → ℕ}

def post (s : Mailbox Event × Mailbox.History Event) (op : Mailbox.Op Event) :
    Mailbox Event × Mailbox.History Event :=
  (Mailbox.step queueMax s.1 op, Mailbox.record s.1 s.2 op)

/-- The event before is through, so `next` begins another one if the batch has it. -/
def between (c : Client Cb Co) : Bool := c.frame.isEmpty && !c.running

/-- The calls an event is dispatched with: the switch of `drain`, and for a message the
reply handlers of its id before the handlers of its method. -/
def opening (wild : ℚ → ℕ) (c : Client Cb Co) : Event → List (Call Cb Co)
  | .connected => [.onConnected]
  | .disconnected => [.onDisconnected]
  | .message j =>
    match j.get? "id", rpcId wild j with
    | none, _ => [.methods j]
    | some _, none => []
    | some _, some rid => replyCalls c rid j ++ [.methods j]

def Act.pushed : Act Cb Co → Option Event
  | .push ev => some ev
  | _ => none

section
variable [DecidableEq Co]

end

end GuppyScreen.WebSocketClient
