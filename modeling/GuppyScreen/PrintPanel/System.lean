import GuppyScreen.Lib.Run
import GuppyScreen.PrintPanel.Panel

/-!
# The print panel, the websocket and Moonraker

The panel's requests travel over the connection that is open when they are
sent; `opened` is only counted when the Connected event is handled, so the panel
can be behind. What arrives waits in the queue, `drain` takes the queue as its
batch, and a callback stays pending until its reply is handled. Moonraker scans
a file's requests in order and answers each when its scan is done, if its
connection still stands. What is in flight on a connection is lost with it.
-/

namespace GuppyScreen.PrintPanel
open Lib

/-- What a request is for. The first two carry the connection whose Connected event
they follow from, if they do. -/
inductive Call where
  | objects (cause : Option ℕ)
  | list (cause : Option ℕ)
  | file (a : Ask)
  deriving DecidableEq

/-- A request and its callback: `askedAt` is `opened` when it was asked, `sentOn` the
connection it went out on. -/
structure Request where
  id : ℕ
  call : Call
  askedAt : ℕ
  sentOn : Option ℕ
  deriving DecidableEq

def Request.askedOn (r : Request) : ℕ := connectionId r.askedAt

inductive Body where
  | done
  | files (answer : List (Path × ℕ))
  | found
  | missing
  deriving DecidableEq

inductive Message where
  | connected (conn : ℕ)
  | disconnected
  | klippyReady
  | reply (r : Request) (b : Body)
  deriving DecidableEq

structure System where
  panel : Panel
  nextId : ℕ
  pending : List Request
  queue : List Message
  batch : List Message
  conn : ℕ
  up : Bool
  wire : List Request
  inbox : List (Request × Body)
  /-- Moonraker's scans of a file, running first; `none` once its connection is gone. -/
  scanning : Path → List (Option Request)
  stored : Path → Bool
  /-- The connection whose Connected event was handled last, and those whose refetch was. -/
  seen : ℕ
  refetched : List ℕ

def queueMax : ℕ := 512

namespace System

def init : System :=
  ⟨.init, 0, [], [], [], 0, false, [], [], fun _ => [], fun _ => false, 0, []⟩

def push (s : System) (m : Message) : System :=
  { s with queue := (if s.queue.length ≥ queueMax then s.queue.tail else s.queue) ++ [m] }

def send (s : System) (c : Call) : System :=
  let r : Request := ⟨s.nextId, c, s.panel.opened, if s.up then some s.conn else none⟩
  { s with
    nextId := s.nextId + 1
    pending := s.pending ++ [r]
    wire := if s.up then s.wire ++ [r] else s.wire }

def act (s : System) (done : Panel × List Ask) : System :=
  done.2.foldl (fun s a => s.send (.file a)) { s with panel := done.1 }

/-! ### The client -/

def answered (s : System) (r : Request) (b : Body) (pick : Option Path) : System :=
  match r.call, b with
  | .objects cause, _ => s.send (.list cause)
  | .list cause, .files answer =>
    { s with refetched := cause.toList ++ s.refetched }.act (s.panel.handleList answer pick)
  | .list _, _ => s
  | .file a, b => s.act (s.panel.handleMetadata a.path a.method r.askedOn (b = .found))

def handle (s : System) (m : Message) (pick : Option Path) : System :=
  match m with
  | .connected conn =>
    { s with panel := { s.panel with opened := s.panel.opened + 1 }, seen := conn }.send
      (.objects (some conn))
  | .disconnected => s
  | .klippyReady => s.send (.objects none)
  | .reply r b =>
    if r ∈ s.pending then { s with pending := s.pending.erase r }.answered r b pick else s

/-! ### Moonraker -/

def receive (s : System) (answer : List (Path × ℕ)) : System :=
  match s.wire with
  | [] => s
  | r :: wire =>
    let s := { s with wire := wire }
    match r.call with
    | .objects _ => { s with inbox := s.inbox ++ [(r, .done)] }
    | .list _ => { s with inbox := s.inbox ++ [(r, .files answer)] }
    | .file ⟨.metadata, path⟩ =>
      { s with inbox := s.inbox ++ [(r, if s.stored path then .found else .missing)] }
    | .file ⟨.metascan, path⟩ =>
      { s with scanning := Function.update s.scanning path (s.scanning path ++ [some r]) }

def complete (s : System) (path : Path) (ok : Bool) : System :=
  match s.scanning path with
  | [] => s
  | scan :: rest =>
    { s with
      scanning := Function.update s.scanning path rest
      stored := if ok then Function.update s.stored path true else s.stored
      inbox := s.inbox ++ scan.toList.map fun r => (r, if ok then .found else .missing) }

end System

inductive Event where
  | open
  | drop
  | klippyReady
  | receive (answer : List (Path × ℕ))
  | complete (path : Path) (ok : Bool)
  | store (path : Path) (known : Bool)
  | deliver
  | drain
  | next (pick : Option Path)
  | select (path : Path)
  | showDir (pick : Option Path)
  | refresh
  | press (ready : Bool)
  deriving DecidableEq

def step (s : System) : Event → System
  | .open =>
    if s.up then s
    else { s with conn := s.conn + 1, up := true }.push (.connected (s.conn + 1))
  | .drop =>
    if s.up then
      { s with
        up := false
        wire := []
        inbox := []
        scanning := fun path => (s.scanning path).map fun _ => none : System }.push .disconnected
    else s
  | .klippyReady => if s.up then s.push .klippyReady else s
  | .receive answer => s.receive answer
  | .complete path ok => s.complete path ok
  -- Another client's scan, Moonraker's own, or the file being replaced.
  | .store path known => { s with stored := Function.update s.stored path known }
  | .deliver =>
    match s.inbox with
    | [] => s
    | (r, b) :: inbox => { s with inbox := inbox }.push (.reply r b)
  | .drain => if s.batch.isEmpty then { s with batch := s.queue, queue := [] } else s
  | .next pick =>
    match s.batch with
    | [] => s
    | m :: batch => { s with batch := batch }.handle m pick
  | .select path => s.act (s.panel.select path)
  | .showDir pick => s.act (s.panel.startOver pick)
  | .refresh => s.send (.list none)
  | .press _ => s

/-- The file a press sends `printer.print.start` for. -/
def started (s : System) : Event → Option Path
  | .press ready => if s.panel.printBtn then s.panel.handlePrintCallback ready else none
  | _ => none

/-! ### Pieces of runs -/

def stickFile : Path := "usb/part.gcode"

-- A request of the panel is received, answered and handled.
def exchange (answer : List (Path × ℕ)) (pick : Option Path) : List Event :=
  [.receive answer, .deliver, .drain, .next pick]

-- A connection opens, and its refetch ends in a metadata request for the file.
def connect : List Event :=
  [.open, .drain, .next none] ++ exchange [] none ++ exchange [(stickFile, 1)] (some stickFile)

end GuppyScreen.PrintPanel
