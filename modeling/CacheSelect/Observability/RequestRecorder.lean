import CacheSelect.Lib.Json

/-! # Recording requests

`RequestRecorder` appends the events of requests to a file, and a `PendingRequest` is the handle by which a
started request is completed or failed.  `append` writes one event in one go, or raises and writes nothing:
the event cannot be encoded, or the file cannot be written (`disk`).

A handle is marked as finished before its event is written.  `finish_raises` is what follows: when the write
raises, the handle cannot be used again.
-/

namespace CacheSelect.Observability

/-- The events, without the data of the recorder itself and the times. -/
inductive LedgerEvent
  | requestStarted (requestId : String) (modelInput sampling metadata evaluation : Json)
  | requestCompleted (requestId : String) (output metrics metadata : Json)
  | requestFailed (requestId : String) (error : Raised) (metadata : Json)

namespace LedgerEvent

def requestId : LedgerEvent → String
  | .requestStarted id _ _ _ _ => id
  | .requestCompleted id _ _ _ => id
  | .requestFailed id _ _ => id

def name : LedgerEvent → String
  | .requestStarted .. => "request_started"
  | .requestCompleted .. => "request_completed"
  | .requestFailed .. => "request_failed"

def isTerminal : LedgerEvent → Bool
  | .requestStarted .. => false
  | .requestCompleted .. => true
  | .requestFailed .. => true

def encodable : LedgerEvent → Bool
  | .requestStarted _ modelInput sampling metadata evaluation =>
      modelInput.encodable && sampling.encodable && metadata.encodable && evaluation.encodable
  | .requestCompleted _ output metrics metadata =>
      output.encodable && metrics.encodable && metadata.encodable
  | .requestFailed _ _ metadata => metadata.encodable

end LedgerEvent

/-- Whether the file system takes an event. -/
abbrev Disk := LedgerEvent → Except Raised Unit

/-- `_append`. -/
def append (disk : Disk) (ledger : List LedgerEvent) (event : LedgerEvent) :
    Except Raised Unit × List LedgerEvent :=
  if event.encodable then
    match disk event with
    | .error e => (.error e, ledger)
    | .ok () => (.ok (), ledger ++ [event])
  else (.error .unicodeEncodeError, ledger)

structure PendingRequest where
  requestId : String
  finished : Bool := false
deriving DecidableEq, Repr

/-- `RequestRecorder.start`, with the id that it makes up. -/
def start (disk : Disk) (ledger : List LedgerEvent) (requestId : String)
    (modelInput sampling metadata evaluation : Json) :
    Except Raised PendingRequest × List LedgerEvent :=
  let (written, ledger) := append disk ledger (.requestStarted requestId modelInput
    (sampling.orElse (.obj [])) (metadata.orElse (.obj [])) (evaluation.orElse (.obj [])))
  (written.map fun () => { requestId }, ledger)

namespace PendingRequest

/-- What `complete` and `fail` have in common. -/
def finish (disk : Disk) (p : PendingRequest) (ledger : List LedgerEvent) (event : LedgerEvent) :
    Except Raised Unit × PendingRequest × List LedgerEvent :=
  if p.finished then
    (.error (.runtimeError s!"Request {p.requestId} was already finished"), p, ledger)
  else
    let (written, ledger) := append disk ledger event
    (written, { p with finished := true }, ledger)

def complete (disk : Disk) (p : PendingRequest) (ledger : List LedgerEvent)
    (output metrics metadata : Json) : Except Raised Unit × PendingRequest × List LedgerEvent :=
  p.finish disk ledger (.requestCompleted p.requestId output (metrics.orElse (.obj []))
    (metadata.orElse (.obj [])))

def fail (disk : Disk) (p : PendingRequest) (ledger : List LedgerEvent) (error : Raised)
    (metadata : Json) : Except Raised Unit × PendingRequest × List LedgerEvent :=
  p.finish disk ledger (.requestFailed p.requestId error (metadata.orElse (.obj [])))

end PendingRequest

/-! ### What the operations leave behind -/

/-- The event can be written. -/
def Writable (disk : Disk) (event : LedgerEvent) : Prop :=
  event.encodable = true ∧ disk event = .ok ()

theorem append_of_writable {disk : Disk} {event : LedgerEvent} (h : Writable disk event)
    (ledger : List LedgerEvent) : append disk ledger event = (.ok (), ledger ++ [event]) := by
  rw [append, if_pos h.1, h.2]

theorem append_of_not_writable {disk : Disk} {event : LedgerEvent} (h : ¬ Writable disk event)
    (ledger : List LedgerEvent) : ∃ e, append disk ledger event = (.error e, ledger) := by
  rw [append]
  by_cases henc : event.encodable = true
  · rw [if_pos henc]
    cases hd : disk event with
    | error e => exact ⟨e, rfl⟩
    | ok u => exact absurd ⟨henc, hd⟩ h
  · exact ⟨_, if_neg henc⟩

/-- An append adds the event or nothing. -/
theorem append_ledger (disk : Disk) (ledger : List LedgerEvent) (event : LedgerEvent) :
    (append disk ledger event).2 = ledger ++ [event] ∨ (append disk ledger event).2 = ledger := by
  by_cases h : Writable disk event
  · rw [append_of_writable h]
    exact Or.inl rfl
  · obtain ⟨e, he⟩ := append_of_not_writable h ledger
    rw [he]
    exact Or.inr rfl

namespace PendingRequest

variable {disk : Disk} {p : PendingRequest} {ledger : List LedgerEvent} {event : LedgerEvent}

theorem finish_of_writable (hp : p.finished = false) (h : Writable disk event) :
    p.finish disk ledger event = (.ok (), { p with finished := true }, ledger ++ [event]) := by
  rw [finish, hp, append_of_writable h]
  rfl

/-- **A write that raises uses the handle up.** -/
theorem finish_raises (hp : p.finished = false) (h : ¬ Writable disk event) :
    ∃ e, p.finish disk ledger event = (.error e, { p with finished := true }, ledger) := by
  obtain ⟨e, he⟩ := append_of_not_writable h ledger
  rw [finish, hp, he]
  exact ⟨e, rfl⟩

theorem finish_of_finished (hp : p.finished = true) : ∃ e, p.finish disk ledger event
    = (.error e, p, ledger) := by
  rw [finish, if_pos hp]
  exact ⟨_, rfl⟩

/-- Whatever happens the handle is used up, and the event is written if the handle was not used up before. -/
theorem finish_cases (disk : Disk) (p : PendingRequest) (ledger : List LedgerEvent)
    (event : LedgerEvent) : (p.finish disk ledger event).2.1 = { p with finished := true } ∧
      ((p.finish disk ledger event).2.2 = ledger ∨
        p.finished = false ∧ (p.finish disk ledger event).2.2 = ledger ++ [event]) := by
  rw [finish]
  cases hp : p.finished with
  | true =>
      rw [if_pos rfl, ← hp]
      exact ⟨rfl, Or.inl rfl⟩
  | false =>
      refine ⟨rfl, ?_⟩
      rcases append_ledger disk ledger event with h | h
      · exact Or.inr ⟨rfl, h⟩
      · exact Or.inl h

end PendingRequest

end CacheSelect.Observability
