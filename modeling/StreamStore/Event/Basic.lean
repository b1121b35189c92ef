import StreamStore.Event.Id
import StreamStore.Text.Utf8

/-!
# Events

An event is an identity with a type name and a payload.  Two events are the same when their
identities are; a draft has no identity yet, and two drafts are the same when their contents are.
-/

namespace StreamStore

/-- The width of the buffer that holds an event's type name on disk, in bytes. -/
def maxEventTypeLength : Nat := 64

/-- What a client hands in: an event that awaits its identity. -/
structure EventDraft where
  type : String
  data : Bytes
deriving DecidableEq, Repr

/-- An event of a stream. -/
structure Event where
  id : EventId
  type : String
  data : Bytes
deriving DecidableEq, Repr

def EventDraft.withId (draft : EventDraft) (id : EventId) : Event := ⟨id, draft.type, draft.data⟩

namespace Event

def same (a b : Event) : Bool := a.id = b.id

/-- The order of events: that of their identities. -/
def compare (a b : Event) : Ordering := a.id.compare b.id

/-- Events in order, those of one identity in the order given. -/
def sort (events : List Event) : List Event :=
  events.mergeSort fun a b => (a.compare b).isLE

/-- Drop each event that has the identity of the one before it. -/
def dropRepeats : List Event → List Event
  | [] => []
  | [e] => [e]
  | a :: b :: events =>
    if a.same b then dropRepeats (a :: events) else a :: dropRepeats (b :: events)
termination_by events => events.length

end Event

/-- Give drafts consecutive identities after the last one in use, all at one clock reading. -/
def stamp (last : Option EventId) (now : Int64) : List EventDraft → List Event
  | [] => []
  | draft :: drafts =>
    let id := match last with
      | some previous => previous.nextAfter now
      | none => EventId.first now
    draft.withId id :: stamp (some id) now drafts

@[simp] theorem length_stamp (last : Option EventId) (now : Int64) (drafts : List EventDraft) :
    (stamp last now drafts).length = drafts.length := by
  induction drafts generalizing last with
  | nil => rfl
  | cons draft drafts ih => simp [stamp, ih]

end StreamStore
