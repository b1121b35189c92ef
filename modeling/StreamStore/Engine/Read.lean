import StreamStore.Engine.Page
import StreamStore.Engine.Reading
import StreamStore.Engine.Residence

/-!
# Reading a stream

A page of a stream is read from its entry, which is made resident first; a position below zero is
refused before anything else happens.  A stream's entry may also be asked for by itself, and a
resident entry's events may be looked at without any change to the cache.
-/

namespace StreamStore

/-- What a reader asks for. -/
structure PageRequest where
  stream : StreamId
  start : Int
  direction : Direction := .forward
  /-- How many events the page has at most. -/
  limit : Nat
deriving DecidableEq, Repr

/-- How far the reading of a page has come. -/
inductive Paging
  | start
  | finding (residence : Residence)
  | reading (n : EntryId) (phase : Reading (List Event))
  | done (result : Except Refusal (List Event))
deriving Repr

/-- How far a task that asks for an entry and its length has come. -/
inductive Measuring
  | finding (residence : Residence)
  | reading (n : EntryId) (phase : Reading Nat)
  | done (result : Except Refusal (EntryId × Nat))
deriving Repr

/-- How far a look at a resident entry has come. -/
inductive Peeking
  | start
  | reading (n : EntryId) (phase : Reading (List Event))
  /-- There may be no entry. -/
  | done (events : Option (List Event))
deriving Repr

namespace Paging

/-- The page or the failure, at the end. -/
def result? : Paging → Option (Except Refusal (List Event))
  | done result => some result
  | _ => none

/-- One step of reading a page. -/
def step (e : Engine) (r : PageRequest) (t : TaskId) (cancelled : Bool) (w : Weather) :
    Paging → Option (Engine × Paging)
  | start =>
    some (e, if r.start < 0 then done (.error (.badRequest (.negativeStart r.start)))
      else finding .start)
  | finding residence =>
    match residence.result? with
    | some (.ok n) => some (e, reading n .arriving)
    | some (.error refusal) => some (e, done (.error refusal))
    | none => (residence.step e r.stream t cancelled w).map fun (e, residence) =>
        (e, finding residence)
  | reading n phase =>
    match phase.result? with
    | some page => some (e, done (.ok page))
    | none =>
      let look (events : List Event) := Page.slice events r.start r.direction r.limit
      (phase.step e n t look).map fun (e, phase) => (e, reading n phase)
  | done _ => none

end Paging

namespace Measuring

/-- The entry with its length or the failure, at the end. -/
def result? : Measuring → Option (Except Refusal (EntryId × Nat))
  | done result => some result
  | _ => none

/-- One step of asking for an entry and its length. -/
def step (e : Engine) (s : StreamId) (t : TaskId) (cancelled : Bool) (w : Weather) :
    Measuring → Option (Engine × Measuring)
  | finding residence =>
    match residence.result? with
    | some (.ok n) => some (e, reading n .arriving)
    | some (.error refusal) => some (e, done (.error refusal))
    | none => (residence.step e s t cancelled w).map fun (e, residence) => (e, finding residence)
  | reading n phase =>
    match phase.result? with
    | some length => some (e, done (.ok (n, length)))
    | none => (phase.step e n t List.length).map fun (e, phase) => (e, reading n phase)
  | done _ => none

end Measuring

namespace Peeking

/-- The events, if there is an entry, at the end. -/
def result? : Peeking → Option (Option (List Event))
  | done events => some events
  | _ => none

/-- One step of looking at a resident entry. -/
def step (e : Engine) (s : StreamId) (t : TaskId) : Peeking → Option (Engine × Peeking)
  | start =>
    match e.resident? s with
    | some n => some (e, reading n .arriving)
    | none => some (e, done none)
  | reading n phase =>
    match phase.result? with
    | some events => some (e, done (some events))
    | none => (phase.step e n t id).map fun (e, phase) => (e, reading n phase)
  | done _ => none

end Peeking

end StreamStore
