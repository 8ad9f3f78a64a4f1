import SenderRatchet.Parameter
import SenderRatchet.Report

/-!
# The monitor

Failures are counted by kind, told to the caller as data, and written to the log when logging is
on. Counts appear in the order in which their kinds first occurred. What operations do besides
failing is up to their callers: they may exit, fail to be shown, or raise errors that have no text.
-/

namespace SenderRatchet

inductive Level
  | debug
  | error
  deriving DecidableEq, Repr

def Level.name : Level → String
  | .debug => "DEBUG"
  | .error => "ERROR"

structure Record where
  level : Level
  text : String
  deriving DecidableEq

/-- An error as it is caught. Asking for its text may raise in turn. -/
structure Thrown where
  report : Report
  unprintable : Option Report := none

/-- What an operation comes to. What it is left by is no error but an exit, which a handler of all
errors lets pass. -/
inductive Ending (α : Type)
  | returned (a : α)
  | raised (t : Thrown)
  | left (r : Report)

structure Operation (α : Type) where
  name : Option String
  shown : Except Report String
  ending : Ending α

namespace Operation

/-- An operation with a name is shown as well, although that is of no use then. -/
def context {α : Type} (op : Operation α) : Except Report String :=
  op.shown.map fun text => op.name.getD text

def ofOutcome {α : Type} (name : String) (outcome : Except Report α) : Operation α where
  name := some name
  shown := .ok name
  ending := match outcome with
    | .ok a => .returned a
    | .error r => .raised { report := r }

end Operation

abbrev Tally := List (Kind × Nat)

namespace Tally

def count (k : Kind) : Tally → Nat
  | [] => 0
  | (l, n) :: rest => if l = k then n else count k rest

def add (k : Kind) : Tally → Tally
  | [] => [(k, 1)]
  | (l, n) :: rest => if l = k then (l, n + 1) :: rest else (l, n) :: add k rest

def total : Tally → Nat
  | [] => 0
  | (_, n) :: rest => n + total rest

theorem count_add (k l : Kind) (t : Tally) :
    count l (add k t) = count l t + if k = l then 1 else 0 := by
  induction t with
  | nil => simp [add, count]
  | cons entry rest ih =>
    obtain ⟨m, n⟩ := entry
    simp only [add]
    split
    · rename_i h
      subst h
      simp only [count]
      split <;> simp
    · rename_i h
      simp only [count, ih]
      split
      · rename_i h'
        subst h'
        have hne : ¬ k = m := fun e => h e.symm
        simp [hne]
      · rfl

theorem total_add (k : Kind) (t : Tally) : total (add k t) = total t + 1 := by
  induction t with
  | nil => rfl
  | cons entry rest ih =>
    simp only [add]
    split <;> simp only [total, *] <;> omega

end Tally

structure Info where
  context : String
  report : Report
  action : Option String
  traced : Bool

structure Statistics where
  total : Nat
  counts : Tally

def Statistics.ratesIn {α : Type} [Div α] [Mul α] (number : Nat → α) (s : Statistics) :
    List (Kind × α) :=
  if s.total = 0 then []
  else s.counts.map fun entry =>
    (entry.1, number entry.2 / number s.total * number 100)

def Statistics.rates (s : Statistics) : List (Kind × Float) := s.ratesIn Nat.toFloat

structure Monitor where
  logging : Bool
  tally : Tally := []

namespace Monitor

def records (context : String) (r : Report) (action : Option String) : List Record :=
  let recovery := match action with
    | some a => if a.isEmpty then "" else s!" | Recovery: {a}"
    | none => ""
  ⟨.error, s!"Error in {context}: {r.text}" ++ recovery⟩ ::
    if r.details.isEmpty then []
    else [⟨.error, s!"Error details: {(Literal.fields r.details).render}"⟩]

def handle (m : Monitor) (context : String) (r : Report) (action : Option String) :
    Info × Monitor × List Record :=
  (⟨context, r, action, m.logging⟩, { m with tally := m.tally.add r.kind },
    if m.logging then records context r action else [])

def handleThrown (m : Monitor) (context : String) (t : Thrown) (action : Option String) :
    Except Report Info × Monitor × List Record :=
  match t.unprintable with
  -- The text is asked for before anything is counted.
  | some cause => (.error cause, m, [])
  | none =>
    let (info, next) := m.handle context t.report action
    (.ok info, next)

/-- Passes on what an operation answers, and tells of what it raises. An exit passes by, and so does
a failure to tell. -/
def safely {α : Type} (m : Monitor) (op : Operation α) :
    Except Report (Except Info α) × Monitor × List Record :=
  match op.ending with
  | .returned a => (.ok (.ok a), m, [])
  | .left r => (.error r, m, [])
  | .raised t =>
    match op.context with
    | .error cause => (.error cause, m, [])
    | .ok context =>
      let (info, next) := m.handleThrown context t (some t.report.kind.suggestion)
      (info.map .error, next)

def statistics (m : Monitor) : Statistics := ⟨m.tally.total, m.tally⟩

def reset (m : Monitor) : Monitor := { m with tally := [] }

end Monitor

def Parameter.Fault.report (name : String) (f : Parameter.Fault) : Report :=
  match f with
  | .value cause => cause.report
  | _ => .coded .general .invalidParameter (f.message name)

namespace Monitor

inductive Call (α : Type)
  | handle (context : String) (t : Thrown) (action : Option String)
  | safely (op : Operation α)
  | validate (name : String) (rule : Parameter.Rule) (v : Value)
  | suggest (r : Report)
  | statistics
  | reset

inductive Reply (α : Type)
  | info (i : Info)
  | told (t : Except Info α)
  | text (s : String)
  | statistics (s : Statistics)
  | nothing
  | raised (r : Report)

def Reply.ofHandled {α : Type} : Except Report Info → Reply α
  | .ok i => .info i
  | .error r => .raised r

def Reply.ofSafely {α : Type} : Except Report (Except Info α) → Reply α
  | .ok t => .told t
  | .error r => .raised r

def perform {α : Type} (call : Call α) (m : Monitor) : Reply α × Monitor × List Record :=
  match call with
  | .handle context t action =>
    let (handled, next) := m.handleThrown context t action
    (.ofHandled handled, next)
  | .safely op =>
    let (told, next) := m.safely op
    (.ofSafely told, next)
  | .validate name rule v =>
    match rule.check v with
    | .ok () => (.nothing, m, [])
    | .error cause => (.raised (cause.report name), m, [])
  | .suggest r => (.text r.kind.suggestion, m, [])
  | .statistics => (.statistics m.statistics, m, [])
  | .reset => (.nothing, m.reset, [])

end Monitor

end SenderRatchet
