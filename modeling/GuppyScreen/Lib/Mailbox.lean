import Mathlib.Data.List.DropRight
import Mathlib.Data.List.Flatten

/-!
# A bounded mailbox that is emptied in batches

A producer pushes into a queue that drops its oldest entry when it is full. A
consumer takes the whole queue as its batch and handles the entries one by one while
pushes go on. `History` keeps the rounds of a run, the latest first: what was pushed
before a batch was taken and what was handled out of it. `Kept` is the invariant that
ties the two together.
-/

namespace GuppyScreen.Lib

variable {α : Type}

structure Mailbox (α : Type) where
  queue : List α := []
  batch : List α := []

namespace Mailbox

inductive Op (α : Type) where
  | push (x : α)
  | take
  | next

structure Round (α : Type) where
  pushed : List α
  handled : List α := []
  deriving DecidableEq

structure History (α : Type) where
  rounds : List (Round α) := []
  pending : List α := []
  deriving DecidableEq

section
variable (n : ℕ)

def enqueue (q : List α) (x : α) : List α :=
  if q.length ≥ n then q.tail ++ [x] else q ++ [x]

/-- A batch is only taken when the last one is handled. -/
def step (m : Mailbox α) : Op α → Mailbox α
  | .push x => { m with queue := enqueue n m.queue x }
  | .take => if m.batch.isEmpty then ⟨[], m.queue⟩ else m
  | .next => { m with batch := m.batch.tail }

end

def History.handle (h : History α) (x : α) : History α :=
  match h.rounds with
  | [] => h
  | r :: rs => { h with rounds := { r with handled := r.handled ++ [x] } :: rs }

def record (m : Mailbox α) (h : History α) : Op α → History α
  | .push x => { h with pending := h.pending ++ [x] }
  | .take => if m.batch.isEmpty then ⟨⟨h.pending, []⟩ :: h.rounds, []⟩ else h
  | .next =>
    match m.batch with
    | [] => h
    | x :: _ => h.handle x

def History.pushed (h : History α) : List α :=
  h.rounds.reverse.flatMap (·.pushed) ++ h.pending

def History.handled (h : History α) : List α := h.rounds.reverse.flatMap (·.handled)

/-! ### The last entries of a list -/

/-- The queue is what a bounded queue keeps of the pending entries, the batch what is
left of the last round, and in all rounds before everything kept was handled. -/
structure Kept (n : ℕ) (m : Mailbox α) (h : History α) : Prop where
  queue : m.queue = h.pending.rtake n
  fresh : h.rounds = [] → m.batch = []
  current : ∀ r ∈ h.rounds.head?, r.handled ++ m.batch = r.pushed.rtake n
  finished : ∀ r ∈ h.rounds.tail, r.handled = r.pushed.rtake n

end Mailbox

end GuppyScreen.Lib
