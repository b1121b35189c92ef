/-!
# Levels of log events

Events have one of five levels.  A threshold lets through the events up to some level, or none.
-/

namespace StreamStore

/-- How important a log event is. -/
inductive LogLevel
  | error
  | warn
  | info
  | debug
  | trace
deriving DecidableEq, Repr

/-- The last level that is let through, if any is. -/
abbrev Threshold := Option LogLevel

namespace LogLevel

/-- The levels, the most important first. -/
def all : List LogLevel := [error, warn, info, debug, trace]

/-- The place of a level among all levels, counted from one. -/
def rank : LogLevel → Nat
  | error => 1
  | warn => 2
  | info => 3
  | debug => 4
  | trace => 5

/-- The name of a level. -/
def name : LogLevel → String
  | error => "ERROR"
  | warn => "WARN"
  | info => "INFO"
  | debug => "DEBUG"
  | trace => "TRACE"

/-- A level by its name, in any case. -/
def ofName? (s : String) : Option LogLevel := all.find? fun level => level.name = s.toUpper

end LogLevel

namespace Threshold

def admits (t : Threshold) (level : LogLevel) : Bool := t.any fun last => level.rank ≤ last.rank

/-- The more generous of two thresholds. -/
def max : Threshold → Threshold → Threshold
  | none, u => u
  | t, none => t
  | some a, some b => if a.rank < b.rank then some b else some a

theorem admits_max (t u : Threshold) (level : LogLevel) :
    (t.max u).admits level = (t.admits level || u.admits level) := by
  cases t with
  | none => simp [max, admits]
  | some a =>
    cases u with
    | none => simp [max, admits]
    | some b =>
      rw [Bool.eq_iff_iff]
      by_cases h : a.rank < b.rank <;> simp [max, h, admits] <;> omega

def ofRank? : Nat → Option Threshold
  | 0 => some none
  | n + 1 => (LogLevel.all[n]?).map some

/-- The number that decimal digits write, perhaps after a plus sign. -/
def rankOf? (cs : List Char) : Option Nat :=
  let ds := match cs with
    | '+' :: rest => rest
    | _ => cs
  if ds.isEmpty ∨ ¬ ds.all Char.isDigit then none
  else some (ds.foldl (fun n c => 10 * n + (c.toNat - '0'.toNat)) 0)

/-- A threshold by its name, in any case, or by its number. -/
def ofText? (s : String) : Option Threshold :=
  match rankOf? s.toList with
  | some n => ofRank? n
  | none => if s.toUpper = "OFF" then some none else (LogLevel.ofName? s).map some

end Threshold

end StreamStore
