import BenchReport.Session.Source
set_option autoImplicit false

namespace BenchReport

/-- Ids by number, and the time of all results that name none. -/
structure Stamps where
  id : Nat → EventId
  now : Timestamp

namespace Stamps

/-- No ids and no time: what an event holds anyway when its result brings none. -/
def none : Stamps := ⟨fun _ => EventId.none, Timestamp.epoch⟩

/-- Bits spread over a whole word, without two words falling on one. -/
def scatter (z : BitVec 64) : BitVec 64 :=
  let z := (z ^^^ z >>> 30) * 0xbf58476d1ce4e5b9
  let z := (z ^^^ z >>> 27) * 0x94d049bb133111eb
  z ^^^ z >>> 31

/-- The `n`th word of the sequence that a seed starts. -/
def word (seed : BitVec 64) (n : Nat) : BitVec 64 :=
  scatter (seed + BitVec.ofNat 64 (n + 1) * 0x9e3779b97f4a7c15)

/-- Random ids from two seeds, and a time. -/
def ofSeeds (high low : BitVec 64) (now : Timestamp) : Stamps :=
  ⟨fun n => EventId.ofRandom (word high n) (word low n), now⟩

/-- A result with an id and a time. -/
def stamp (s : Stamps) (n : Nat) (o : Observation) : Observation :=
  { o with eventId := some (o.eventId.getD (s.id n)), timestamp := some (o.timestamp.getD s.now) }

/-- Results stamped with ids from the `n`th on. -/
def stampAll (s : Stamps) : Nat → List Observation → List Observation
  | _, [] => []
  | n, o :: rest => s.stamp n o :: stampAll s (n + 1) rest

/-- The results of workers stamped with ids from the `n`th on. -/
def stampWorkers (s : Stamps) : Nat → List WorkerOutput → List WorkerOutput
  | _, [] => []
  | n, w :: rest =>
    { w with results := s.stampAll n w.results } :: stampWorkers s (n + w.results.length) rest

end Stamps

/-- A call that leaves the count of stamps alone. -/
def Call.beside {σ α : Type} (c : Call σ α) : Call (σ × Nat) α :=
  ExceptT.mk fun (s, n) => let (r, s) := c.run s; (r, (s, n))

/-- A source whose results are stamped; its state counts the stamps handed out. -/
def Source.stamped {σ : Type} (s : Source σ) (stamps : Stamps) : Source (σ × Nat) where
  tag := s.tag
  connect := s.connect.beside
  stages := s.stages.beside
  actions name := (s.actions name).beside
  data name := (s.data name).beside
  results name := do
    let workers ← (s.results name).beside
    let n := (← get).2
    modify fun (s, n) => (s, n + (workers.flatMap fun w => w.results).length)
    return stamps.stampWorkers n workers
  facts name := (s.facts name).beside
  close := s.close.beside

end BenchReport
