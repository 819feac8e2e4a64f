import BenchReport.Monitor
import BenchReport.Proofs.Experiments
set_option autoImplicit false

namespace BenchReport

namespace Grouped

variable {α β κ : Type} [DecidableEq κ] {key : α → κ} {k : κ} {x : α} {xs : List α}

/-- The groups of a list, each told from its key alone. -/
theorem ofList_eq (key : α → κ) (xs : List α) :
    ofList key xs = (xs.map key).eraseDups.map fun k => (k, xs.filter fun x => key x = k) := by
  have grouped := ofList_groups key xs
  rw [← keys_ofList, List.map_map]
  have own : ∀ g ∈ ofList key xs, id g = (g.1, xs.filter fun x => key x = g.1) := by
    intro g mem
    rw [← grouped.items g mem]
    rfl
  exact (List.map_id _).symm.trans (List.map_congr_left own)

/-- Puts values behind those of their key, or with a new key behind all others. -/
def extend (k : κ) (vs : List β) : List (κ × List β) → List (κ × List β)
  | [] => [(k, vs)]
  | (k', ws) :: rest => if k' = k then (k', ws ++ vs) :: rest else (k', ws) :: extend k vs rest

/-- The values of all items under the keys of the items, gathered in one pass. -/
def gather (key : α → κ) (values : α → List β) (xs : List α) : List (κ × List β) :=
  xs.foldl (fun groups x => extend (key x) (values x) groups) []

variable {values : α → List β}

theorem extend_extend (k : κ) (vs ws : List β) (groups : List (κ × List β)) :
    extend k ws (extend k vs groups) = extend k (vs ++ ws) groups := by
  induction groups with
  | nil => simp only [extend, ↓reduceIte]
  | cons head rest ih =>
      obtain ⟨k', us⟩ := head
      by_cases same : k' = k
      · simp only [extend, same, ↓reduceIte, List.append_assoc]
      · simp only [extend, same, ↓reduceIte, ih]

theorem extend_map_put (k : κ) (x : α) (groups : List (κ × List α)) :
    extend k (values x) (groups.map fun g => (g.1, g.2.flatMap values)) =
      (put k x groups).map fun g => (g.1, g.2.flatMap values) := by
  induction groups with
  | nil => simp only [put, extend, List.map_nil, List.map_cons, List.flatMap_singleton]
  | cons head rest ih =>
      obtain ⟨k', ys⟩ := head
      by_cases same : k' = k
      · simp only [put, extend, same, ↓reduceIte, List.map_cons, List.flatMap_append,
          List.flatMap_singleton]
      · simp only [put, extend, same, ↓reduceIte, List.map_cons, ih]

/-- Gathering values comes to the same as grouping the items and then taking their values. -/
theorem gather_eq_ofList (key : α → κ) (values : α → List β) (xs : List α) :
    gather key values xs = (ofList key xs).map fun g => (g.1, g.2.flatMap values) := by
  induction xs using List.reverseRecOn with
  | nil => rfl
  | append_singleton xs x ih =>
      rw [ofList_concat, ← extend_map_put, ← ih]
      exact List.foldl_concat ..

/-- Under each key stand the values of its items, in the order of the items. -/
theorem gather_eq (key : α → κ) (values : α → List β) (xs : List α) :
    gather key values xs = (xs.map key).eraseDups.map fun k =>
      (k, (xs.filter fun x => key x = k).flatMap values) := by
  rw [gather_eq_ofList, ofList_eq, List.map_map]
  rfl

/-- Every value is gathered once. -/
theorem flatMap_gather_perm (key : α → κ) (values : α → List β) (xs : List α) :
    ((gather key values xs).flatMap Prod.snd).Perm (xs.flatMap values) := by
  rw [gather_eq_ofList, List.flatMap_map, ← List.flatMap_assoc]
  exact (flatMap_ofList_perm key xs).flatMap_right values

/-- Items of one key, one after another, are gathered like a single one with all their values. -/
theorem foldl_extend_pieces {pieces : List α} (some_piece : pieces ≠ [])
    (keyed : ∀ p ∈ pieces, key p = k) (groups : List (κ × List β)) :
    pieces.foldl (fun groups x => extend (key x) (values x) groups) groups =
      extend k (pieces.flatMap values) groups := by
  induction pieces generalizing groups with
  | nil => exact absurd rfl some_piece
  | cons p rest ih =>
      obtain ⟨first, others⟩ := List.forall_mem_cons.1 keyed
      rw [List.foldl_cons, List.flatMap_cons, first]
      by_cases last : rest = []
      · rw [last, List.foldl_nil, List.flatMap_nil, List.append_nil]
      · rw [ih last others, extend_extend]

/-- An item may come in pieces: what is gathered stays the same. -/
theorem gather_pieces {pieces : List α} (some_piece : pieces ≠ [])
    (keyed : ∀ p ∈ pieces, key p = key x) (whole : pieces.flatMap values = values x)
    (front back : List α) :
    gather key values (front ++ pieces ++ back) = gather key values (front ++ x :: back) := by
  simp only [gather, List.foldl_append, List.foldl_cons]
  rw [foldl_extend_pieces some_piece keyed, whole]

end Grouped

namespace MonitorReport

def stageKey (s : MonitorSeries) : String × String × MonitorKind := (s.stage, s.name, s.kind)

def sessionKey (s : MonitorSeries) : String × MonitorKind := (s.name, s.kind)

variable {κ : Type} [DecidableEq κ]

/-- The keys of series, in the order in which they first appear. -/
def keysOf (key : MonitorSeries → κ) (series : List MonitorSeries) : List κ :=
  (series.map key).eraseDups

/-- The samples of all series of a key, one series after another. -/
def samplesUnder (key : MonitorSeries → κ) (series : List MonitorSeries) (k : κ) : List Float :=
  samplesOf (series.filter fun s => key s = k)

/-- The figures of the stages, of samples that were gathered under their keys. -/
theorem byStage_gather (series : List MonitorSeries) :
    byStage series = (Grouped.gather stageKey MonitorSeries.samples series).map fun g =>
      MonitorFigures.ofSamples (some g.1.1) g.1.2.1 g.1.2.2 g.2 := by
  rw [Grouped.gather_eq_ofList, List.map_map]
  rfl

theorem bySession_gather (series : List MonitorSeries) :
    bySession series = (Grouped.gather sessionKey MonitorSeries.samples series).map fun g =>
      MonitorFigures.ofSamples none g.1.1 g.1.2 g.2 := by
  rw [Grouped.gather_eq_ofList, List.map_map]
  rfl

/-- The samples of all keys together are the samples of all series, each as often. -/
theorem samplesUnder_perm (key : MonitorSeries → κ) (series : List MonitorSeries) :
    ((keysOf key series).flatMap (samplesUnder key series)).Perm (samplesOf series) := by
  have gathered := Grouped.flatMap_gather_perm key MonitorSeries.samples series
  rw [Grouped.gather_eq, List.flatMap_map] at gathered
  exact gathered

/-- Monitors are grouped without loss. A stage has one entry for each monitor and kind, the session
too, in the order in which they first appear, with the figures of all their samples in the order of
the series; each sample counts once in the stages and once in the session. A series that comes in
several pieces, one behind another, makes no difference to either. -/
theorem ofSeries_grouped :
    (∀ (series : List MonitorSeries) (users : Table String UInt64),
      (ofSeries series users).stages =
        (keysOf stageKey series).map (fun k =>
          ⟨some k.1, k.2.1, k.2.2,
            (Summary.ofSamples (samplesUnder stageKey series k)).sanitized⟩) ∧
      (ofSeries series users).session =
        (keysOf sessionKey series).map (fun k =>
          ⟨none, k.1, k.2, (Summary.ofSamples (samplesUnder sessionKey series k)).sanitized⟩) ∧
      ((keysOf stageKey series).flatMap (samplesUnder stageKey series)).Perm (samplesOf series) ∧
      ((keysOf sessionKey series).flatMap (samplesUnder sessionKey series)).Perm
        (samplesOf series)) ∧
    ∀ (front back pieces : List MonitorSeries) (s : MonitorSeries) (users : Table String UInt64),
      pieces ≠ [] → (∀ p ∈ pieces, stageKey p = stageKey s) → samplesOf pieces = s.samples →
      (ofSeries (front ++ pieces ++ back) users).stages =
          (ofSeries (front ++ s :: back) users).stages ∧
        (ofSeries (front ++ pieces ++ back) users).session =
          (ofSeries (front ++ s :: back) users).session := by
  constructor
  · intro series users
    refine ⟨?_, ?_, samplesUnder_perm stageKey series, samplesUnder_perm sessionKey series⟩
    · show byStage series = _
      rw [byStage_gather, Grouped.gather_eq, List.map_map]
      rfl
    · show bySession series = _
      rw [bySession_gather, Grouped.gather_eq, List.map_map]
      rfl
  · intro front back pieces s users some_piece keyed whole
    constructor
    · show byStage _ = byStage _
      rw [byStage_gather, byStage_gather, Grouped.gather_pieces some_piece keyed whole]
    · have keyed' : ∀ p ∈ pieces, sessionKey p = sessionKey s := by
        intro p mem
        exact congrArg Prod.snd (keyed p mem)
      show bySession _ = bySession _
      rw [bySession_gather, bySession_gather, Grouped.gather_pieces some_piece keyed' whole]

/-- A memory series in three pieces, one of them empty, between series of another kind and of
another stage. -/
theorem ofSeries_grouped_three_pieces :
    let front : List MonitorSeries := [⟨"setup", "process", .memory, [64.0], false⟩,
      ⟨"execute", "process", .cpu, [], true⟩]
    let back : List MonitorSeries := [⟨"execute", "process", .memory, [8.0], false⟩,
      ⟨"setup", "process", .cpu, [12.5], true⟩]
    let whole : MonitorSeries := ⟨"execute", "process", .memory, [16.0, 32.0, 24.0], true⟩
    let pieces : List MonitorSeries := [{ whole with samples := [16.0, 32.0] },
      { whole with samples := [], perUser := false }, { whole with samples := [24.0] }]
    pieces ≠ [] ∧ (∀ p ∈ pieces, stageKey p = stageKey whole) ∧
      samplesOf pieces = whole.samples ∧
      (ofSeries (front ++ pieces ++ back) Table.empty).stages =
        (ofSeries (front ++ whole :: back) Table.empty).stages ∧
      (ofSeries (front ++ pieces ++ back) Table.empty).session =
        (ofSeries (front ++ whole :: back) Table.empty).session ∧
      samplesUnder stageKey (front ++ pieces ++ back) (stageKey whole) =
        [16.0, 32.0, 24.0, 8.0] := by
  intro front back whole pieces
  have keyed : ∀ p ∈ pieces, stageKey p = stageKey whole := by decide
  obtain ⟨stages, session⟩ :=
    ofSeries_grouped.2 front back pieces whole Table.empty (List.cons_ne_nil _ _) keyed rfl
  exact ⟨List.cons_ne_nil _ _, keyed, rfl, stages, session, rfl⟩

end MonitorReport

end BenchReport
