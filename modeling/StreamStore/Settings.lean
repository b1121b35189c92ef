import StreamStore.Decimal.Shortest
import StreamStore.Document.Basic

/-!
# Settings of a store

Every setting has a default, so a document may leave any of them out.  Settings are valid when
each size is positive and the share of streams to evict is above zero and at most one.
-/

namespace StreamStore

/-- The settings of a store. -/
structure Settings where
  /-- The directory that holds one directory for each stream type. -/
  dataDirectory : String := "./eventvault-data"
  maxReadPageSize : Nat := 100
  hydrationPageSize : Nat := 1000
  maxEventSize : Nat := 1048576
  maxCachedStreams : Nat := 1000
  maxProcessMemory : Nat := 2147483648
  memoryCheckInterval : Nat := 5000
  /-- The share of the cached streams to evict under memory pressure; a third by default. -/
  evictionShare : Binary64 := Binary64.ofRatio false 1 3
  /-- The bound of the write queue, if it has one. -/
  writeQueueCapacity : Option Nat := none
  syncOnWrite : Bool := false
  deleteAttempts : Nat := 3
  deleteRetryDelay : Nat := 100
deriving DecidableEq, Repr

/-- What makes settings invalid. -/
inductive SettingsFault
  /-- A setting that must be positive is zero. -/
  | zero (name : String)
  | share (value : Binary64)
  | zeroQueue
deriving DecidableEq, Repr

/-- Why settings cannot be loaded. -/
inductive LoadFault
  | read
  | parse
  | invalid (fault : SettingsFault)
deriving DecidableEq, Repr

/-- The wording of a fault. -/
def SettingsFault.message : SettingsFault → String
  | .zero name => "invalid config: " ++ name ++ " must be greater than zero"
  | .share value => "invalid config: eviction_fraction must be in (0, 1], got " ++ value.display
  | .zeroQueue => "invalid config: write_queue_capacity must be greater than zero when set"

namespace Settings

/-- The settings that must be positive, in the order they are looked at. -/
def sizes (s : Settings) : List (String × Nat) := [
  ("max_read_page_size", s.maxReadPageSize),
  ("hydration_page_size", s.hydrationPageSize),
  ("max_event_size", s.maxEventSize),
  ("max_cached_streams", s.maxCachedStreams),
  ("memory_check_interval_ms", s.memoryCheckInterval),
  ("delete_retry_attempts", s.deleteAttempts)]

/-- The first thing that makes settings invalid. -/
def fault? (s : Settings) : Option SettingsFault :=
  match s.sizes.find? fun size => size.2 = 0 with
  | some (name, _) => some (.zero name)
  | none =>
    if !s.evictionShare.isShare then some (.share s.evictionShare)
    else if s.writeQueueCapacity = some 0 then some .zeroQueue
    else none

/-- Accept settings only if they are valid. -/
def validate (s : Settings) : Except SettingsFault Unit :=
  match s.fault? with
  | some fault => .error fault
  | none => .ok ()

/-- The names of the settings in documents. -/
def names : List String := [
  "data_dir", "max_read_page_size", "hydration_page_size", "max_event_size", "max_cached_streams",
  "max_process_memory_bytes", "memory_check_interval_ms", "eviction_fraction",
  "write_queue_capacity", "sync_on_write", "delete_retry_attempts", "delete_retry_delay_ms"]

/-- Read settings from a document. -/
def ofDocument? (dialect : Dialect) (d : Document) : Option Settings := do
  let fields ← d.fields? dialect names
  let word := Document.natural? 64
  let defaults : Settings := {}
  return {
    dataDirectory := ← Document.optional? fields "data_dir" defaults.dataDirectory Document.text?
    maxReadPageSize :=
      ← Document.optional? fields "max_read_page_size" defaults.maxReadPageSize word
    hydrationPageSize :=
      ← Document.optional? fields "hydration_page_size" defaults.hydrationPageSize word
    maxEventSize := ← Document.optional? fields "max_event_size" defaults.maxEventSize word
    maxCachedStreams :=
      ← Document.optional? fields "max_cached_streams" defaults.maxCachedStreams word
    maxProcessMemory :=
      ← Document.optional? fields "max_process_memory_bytes" defaults.maxProcessMemory word
    memoryCheckInterval :=
      ← Document.optional? fields "memory_check_interval_ms" defaults.memoryCheckInterval word
    evictionShare :=
      ← Document.optional? fields "eviction_fraction" defaults.evictionShare Document.fraction?
    writeQueueCapacity :=
      ← Document.optional? fields "write_queue_capacity" none (Document.nullable? word)
    syncOnWrite := ← Document.optional? fields "sync_on_write" false Document.boolean?
    deleteAttempts :=
      ← Document.optional? fields "delete_retry_attempts" defaults.deleteAttempts
        (Document.natural? 32)
    deleteRetryDelay :=
      ← Document.optional? fields "delete_retry_delay_ms" defaults.deleteRetryDelay word }

/-- Settings as a document. -/
def toDocument (s : Settings) : Document :=
  let nat (n : Nat) : Document := .number (.integer n)
  .record [
    ("data_dir", .text s.dataDirectory),
    ("max_read_page_size", nat s.maxReadPageSize),
    ("hydration_page_size", nat s.hydrationPageSize),
    ("max_event_size", nat s.maxEventSize),
    ("max_cached_streams", nat s.maxCachedStreams),
    ("max_process_memory_bytes", nat s.maxProcessMemory),
    ("memory_check_interval_ms", nat s.memoryCheckInterval),
    ("eviction_fraction", .number (.fraction s.evictionShare)),
    ("write_queue_capacity", match s.writeQueueCapacity with
      | some n => nat n
      | none => .null),
    ("sync_on_write", .boolean s.syncOnWrite),
    ("delete_retry_attempts", nat s.deleteAttempts),
    ("delete_retry_delay_ms", nat s.deleteRetryDelay)]

end Settings

end StreamStore
