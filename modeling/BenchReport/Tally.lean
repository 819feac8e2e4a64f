import BenchReport.Event
import BenchReport.Stats.Estimate
set_option autoImplicit false

namespace BenchReport

open Stats (Estimate)

/-- What is known of one action: counters, errors and samples of all events of that name. Each
worker keeps its own; at the end they are frozen and merged. -/
structure Tally where
  name : String
  stage : String
  source : String
  tags : TagSet
  total : UInt64
  succeeded : UInt64
  failed : UInt64
  /-- How often each error message occurred. -/
  errors : Table String UInt64
  /-- The positive timings of the phases that have any, in the order they came. -/
  timings : Table Phase (List Float)
  /-- The figures of each phase, once the tally was frozen. -/
  summaries : PerPhase (Option (Summary Float))
  estimates : PerPhase (Estimate Float)
  /-- The events counted, as long as they were not taken. -/
  events : List Event
  deriving BEq, DecidableEq

namespace Tally

/-- The tally of an action of which nothing happened yet. -/
def empty (name stage : String) : Tally where
  name
  stage
  source := ""
  tags := Table.empty
  total := 0
  succeeded := 0
  failed := 0
  errors := Table.empty
  timings := Table.empty
  summaries := PerPhase.ofFn fun _ => none
  estimates := PerPhase.ofFn fun _ => Estimate.empty
  events := []

def isEmpty (t : Tally) : Bool := t.total == 0

/-- One occurrence of a message more. -/
def countError (errors : Table String UInt64) (message : String) : Table String UInt64 :=
  errors.alter message fun n => n.getD 0 + 1

/-- The samples of a phase. -/
def samples (t : Tally) (p : Phase) : List Float := (t.timings.get? p).getD []

/-- The timings with a further one of a phase, if it is positive. -/
def pushTiming (timings : Table Phase (List Float)) (p : Phase) (x : Float) :
    Table Phase (List Float) :=
  if 0.0 < x then timings.alter p fun xs => xs.getD [] ++ [x] else timings

/-- The timings with those of an event that are positive. -/
def sample (timings : Table Phase (List Float)) (measured : Timings) : Table Phase (List Float) :=
  Phase.all.foldl (fun timings p => pushTiming timings p (measured.get p)) timings

/-- Counts an event, whatever its name. -/
def count (t : Tally) (e : Event) : Tally where
  name := t.name
  stage := t.stage
  source := if t.source = "" then e.header.source else t.source
  tags := t.tags.insertAll e.header.tags
  total := t.total + 1
  succeeded := match e.header.error with
    | none => t.succeeded + 1
    | some _ => t.succeeded
  failed := match e.header.error with
    | none => t.failed
    | some _ => t.failed + 1
  errors := match e.header.error with
    | none => t.errors
    | some message => countError t.errors message
  timings := sample t.timings e.header.timings
  summaries := t.summaries
  estimates := t.estimates
  events := t.events ++ [e]

/-- Counts an event of the action. -/
def ingest (t : Tally) (e : Event) : Except Error Tally :=
  if e.name = t.name then .ok (t.count e) else .error (.misrouted e.name t.name)

/-- Makes an event of an observation in a stage and counts it. -/
def add (t : Tally) (o : Observation) (stage : String) : Except Error Tally :=
  Event.ofObservation o stage >>= t.ingest

/-- The events counted, and the tally without them. -/
def takeEvents (t : Tally) : List Event × Tally := (t.events, { t with events := [] })

/-- Takes central figures and extremes of every phase from its samples and feeds them to its
estimate. A phase without samples is summarised as a zero. -/
def takeMoments (t : Tally) : Tally :=
  let moments (p : Phase) := ((t.summaries.get p).getD .zero).withMoments (t.samples p)
  { t with
    summaries := PerPhase.ofFn fun p => some (moments p)
    estimates := PerPhase.ofFn fun p => (t.estimates.get p).feed (moments p) }

/-- Takes the quantiles of every phase from its samples. -/
def takeQuantiles (t : Tally) : Tally :=
  { t with
    summaries := PerPhase.ofFn fun p =>
      some (((t.summaries.get p).getD .zero).withQuantiles (t.samples p)) }

/-- The tally with the figures of its samples. -/
def freeze (t : Tally) : Tally := t.takeMoments.takeQuantiles

/-- The figures of a phase that two tallies sampled. Extremes combine; the central figures come from
the estimate, fed with those of the second tally. -/
def combine (estimate : Estimate Float) (ours theirs : Summary Float) : Summary Float :=
  (estimate.feed theirs).apply
    { ours with
      minimum := Scalar.min ours.minimum theirs.minimum
      maximum := Scalar.max ours.maximum theirs.maximum }

/-- Figures and estimate of a phase after a merge. What was summarised from no samples only stands
in for missing figures: it gives way to figures of the other side and changes none of ours. -/
def mergePhase (t u : Tally) (p : Phase) : Option (Summary Float) × Estimate Float :=
  match u.summaries.get p with
  | none => (t.summaries.get p, t.estimates.get p)
  | some theirs =>
    if (u.samples p).isEmpty then (t.summaries.get p, t.estimates.get p)
    else match t.summaries.get p with
      | some ours =>
        if (t.samples p).isEmpty then (some theirs, u.estimates.get p)
        else (some (combine (t.estimates.get p) ours theirs), (t.estimates.get p).feed theirs)
      | none => (some theirs, u.estimates.get p)

/-- Two tallies put together field by field. -/
def joined (t u : Tally) : Tally where
  name := t.name
  stage := t.stage
  source := if t.source = "" then u.source else t.source
  tags := t.tags.insertAll u.tags.tags
  total := t.total + u.total
  succeeded := t.succeeded + u.succeeded
  failed := t.failed + u.failed
  errors := u.errors.entries.foldl
    (fun errors e => errors.alter e.1 fun n => n.getD 0 + e.2) t.errors
  timings := u.timings.entries.foldl
    (fun timings e => timings.alter e.1 fun xs => xs.getD [] ++ e.2) t.timings
  summaries := PerPhase.ofFn fun p => (mergePhase t u p).1
  estimates := PerPhase.ofFn fun p => (mergePhase t u p).2
  events := t.events ++ u.events

/-- The tally of the events of both. Merging with an empty tally changes nothing but the name and
the stage of the result, which are those of the first. -/
def merge (t u : Tally) : Tally :=
  if u.isEmpty then t
  else if t.isEmpty then { u with name := t.name, stage := t.stage }
  else t.joined u

/-- The tally with further tags. -/
def addTags (t : Tally) (tags : List Tag) : Tally := { t with tags := t.tags.insertAll tags }

end Tally

end BenchReport
