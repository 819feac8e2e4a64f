import BenchReport.Monitor
import BenchReport.Proofs.Delivery.Categories
import BenchReport.Proofs.Metric.Rereading
set_option autoImplicit false

namespace BenchReport

open Json

namespace Json

mutual

def doubles : Json → List Float
  | .null | .bool _ | .text _ | .number (.int _) => []
  | .number (.float x) => [x]
  | .list items => doublesOfItems items
  | .record fields => doublesOfFields fields
termination_by structural j => j

def doublesOfItems : List Json → List Float
  | [] => []
  | x :: rest => doubles x ++ doublesOfItems rest
termination_by structural l => l

def doublesOfFields : List (String × Json) → List Float
  | [] => []
  | (_, v) :: rest => doubles v ++ doublesOfFields rest
termination_by structural l => l

end

def Finite (j : Json) : Prop := ∀ x ∈ j.doubles, x.isFinite = true

theorem mem_doublesOfFields {x : Float} {fields : List (String × Json)} :
    x ∈ doublesOfFields fields ↔ ∃ e ∈ fields, x ∈ e.2.doubles := by
  induction fields with
  | nil => simp [doublesOfFields]
  | cons e rest ih =>
      obtain ⟨k, v⟩ := e
      simp [doublesOfFields, ih]

end Json

namespace Fields

/-- All fields of a part of a record are written finite. -/
def Finite {σ α : Type} (f : Fields σ α) (s : σ) : Prop := ∀ e ∈ f.write s, e.2.Finite

variable {σ τ α β : Type} {s : σ}

theorem Finite.map (g : α → β) {f : Fields σ α} (finite : f.Finite s) : (g <$> f).Finite s :=
  finite

theorem Finite.seq {f : Fields σ (α → β)} {x : Fields σ α} (left : f.Finite s)
    (right : x.Finite s) : (f <*> x).Finite s := by
  intro e mem
  rcases List.mem_append.1 mem with mem | mem
  · exact left e mem
  · exact right e mem

/-- A field is written finite when its value is. -/
theorem finite_field {name : String} {c : Codec β} {get : σ → β} {p : Policy β}
    (finite : (c.write (get s)).Finite) : (field name c get p).Finite s := by
  intro e mem
  change e ∈ if p.shown (get s) then [(name, c.write (get s))] else [] at mem
  split at mem
  · obtain rfl := List.mem_singleton.1 mem
    exact finite
  · cases mem

theorem Finite.inline {sub : Fields τ β} {get : σ → τ} (finite : sub.Finite (get s)) :
    (inline sub get).Finite s :=
  finite

/-- A table is written finite when its values are. -/
theorem finite_others {c : Codec β} {get : σ → Table String β}
    (finite : ∀ e ∈ (get s).entries, (c.write e.2).Finite) : (others c get).Finite s :=
  List.forall_mem_map.2 finite

theorem Finite.vector {size : Nat} {f : Fin size → Fields σ β} (finite : ∀ i, (f i).Finite s) :
    (vector size f).Finite s := by
  induction size with
  | zero => exact fun e mem => nomatch mem
  | succ size ih =>
      exact .seq (.map Vector.push (ih fun i => finite i.castSucc)) (finite (Fin.last size))

section Kinds

variable {name : String}

theorem finite_text {get : σ → String} : (required name Codec.text get).Finite s :=
  finite_field fun _ mem => nomatch mem

theorem finite_count {get : σ → UInt64} : (required name Codec.count get).Finite s :=
  finite_field fun _ mem => nomatch mem

theorem finite_sparse_text {get : σ → Option String} : (sparse name Codec.text get).Finite s := by
  refine finite_field ?_
  cases get s with
  | none => exact fun _ mem => nomatch mem
  | some t => exact fun _ mem => nomatch mem

theorem finite_float {get : σ → Float} (finite : (get s).isFinite = true) :
    (required name Codec.float get).Finite s :=
  finite_field (List.forall_mem_singleton.2 finite)

end Kinds

end Fields

open Fields

/-- A record is written finite when its fields are. -/
theorem Codec.finite_record {α : Type} {title : String} {fs : Fields α α} {a : α}
    (finite : fs.Finite a) : ((Codec.record title fs).write a).Finite := by
  intro x mem
  obtain ⟨e, field, own⟩ := mem_doublesOfFields.1 mem
  exact finite e field x own

theorem MetricValue.finite_write {v : MetricValue} (finite : ∀ x ∈ v.double?, x.isFinite = true) :
    (codec.write v).Finite := by
  cases v with
  | integer i => exact fun _ mem => nomatch mem
  | float x => exact List.forall_mem_singleton.2 (finite x rfl)

theorem MetricValue.finite_others {σ : Type} {s : σ} {get : σ → Table String MetricValue}
    (finite : ∀ x ∈ (get s).values.filterMap double?, x.isFinite = true) :
    (others codec get).Finite s := by
  refine Fields.finite_others fun e mem => finite_write fun x double => finite x ?_
  exact List.mem_filterMap.2 ⟨e.2, List.mem_map_of_mem mem, double⟩

theorem Summary.finite_document {s : Summary Float} (finite : ∀ x ∈ s.values, x.isFinite = true) :
    document.Finite s := by
  obtain ⟨median, mean, variance, stdev, minimum, maximum, quantiles⟩ := s
  simp only [values, List.mem_append, List.mem_cons, List.not_mem_nil, or_false] at finite
  have level (i : Fin 13) : quantiles[i].isFinite = true :=
    finite _ (.inr (Vector.mem_toList_iff.2 (Vector.getElem_mem i.isLt)))
  refine .seq (.seq (.seq (.seq (.seq (.seq (.map _ ?_) ?_) ?_) ?_) ?_) ?_)
    (.vector fun i => finite_float (level i))
  · exact finite_float (finite median (by simp))
  · exact finite_float (finite mean (by simp))
  · exact finite_float (finite variance (by simp))
  · exact finite_float (finite stdev (by simp))
  · exact finite_float (finite minimum (by simp))
  · exact finite_float (finite maximum (by simp))

theorem CountRow.finite_write {row : CountRow} (finite : row.rate.isFinite = true) :
    (codec.write row).Finite :=
  Codec.finite_record (.seq (.seq (.seq (.seq (.seq (.seq (.map _ finite_text) finite_text)
    finite_text) finite_count) finite_count) finite_count) (finite_float finite))

theorem PhaseRow.finite_write {row : PhaseRow} (finite : ∀ x ∈ row.doubles, x.isFinite = true) :
    (codec.write row).Finite := by
  have stats := fun x mem => finite x (List.mem_append_left _ mem)
  have custom := fun x mem => finite x (List.mem_append_right _ mem)
  exact Codec.finite_record (.seq (.seq (.seq (.seq (.map _ finite_text) finite_text) finite_text)
    (.inline (Summary.finite_document stats))) (MetricValue.finite_others custom))

theorem CustomRow.finite_write {row : CustomRow} (finite : ∀ x ∈ row.doubles, x.isFinite = true) :
    (codec.write row).Finite :=
  Codec.finite_record (.seq (.seq (.seq (.map _ finite_text) finite_text) finite_text)
    (MetricValue.finite_others finite))

theorem StreamRow.finite_write {row : StreamRow}
    (finite : ∀ x ∈ row.stats.values, x.isFinite = true) : (codec.write row).Finite :=
  Codec.finite_record (.seq (.seq (.seq (.map _ finite_text) finite_text) finite_text)
    (.inline (Summary.finite_document finite)))

/-- Its quantiles are set into the row of a monitor as a table. -/
theorem MonitorFigures.finite_row {f : MonitorFigures}
    (finite : ∀ x ∈ f.stats.values, x.isFinite = true) :
    (MonitorRow.codec.write f.row).Finite := by
  obtain ⟨stage, name, kind, ⟨median, mean, variance, stdev, minimum, maximum, quantiles⟩⟩ := f
  simp only [Summary.values, List.mem_append, List.mem_cons, List.not_mem_nil, or_false] at finite
  have level : ∀ e ∈ (Table.ofList (Stats.levelNames.zip quantiles.toList)).entries,
      (Codec.float.write e.2).Finite := by
    intro e mem
    have listed := (List.of_mem_zip (Table.mem_of_mem_ofList mem)).2
    exact List.forall_mem_singleton.2 (finite e.2 (.inr listed))
  refine Codec.finite_record (.seq (.seq (.seq (.seq (.seq (.seq (.seq (.seq (.seq
    (.map _ finite_sparse_text) finite_text) finite_text) ?_) ?_) ?_) ?_) ?_) ?_)
    (Fields.finite_others level))
  · exact finite_float (finite mean (by simp))
  · exact finite_float (finite median (by simp))
  · exact finite_float (finite maximum (by simp))
  · exact finite_float (finite minimum (by simp))
  · exact finite_float (finite stdev (by simp))
  · exact finite_float (finite variance (by simp))

namespace ActionMetrics

variable {t : Tally} {elapsed : Float} {declared : List CustomMetric} {m : ActionMetrics}

theorem isFinite_phaseRows (made : ofTally t elapsed declared = .ok m) :
    ∀ row ∈ m.phaseRows, ∀ x ∈ row.doubles, x.isFinite = true := by
  obtain ⟨rate, custom, -, collected, rfl⟩ := ofTally_ok_iff.1 made
  have settable := settable_of_collectCustom collected
  intro row mem x double
  rw [phaseRows_written] at mem
  obtain ⟨p, -, rfl⟩ := List.mem_map.1 mem
  rcases List.mem_append.1 double with figure | metric
  · exact Summary.isFinite_sanitized _ x figure
  · exact (set_ofList fun m declared => settable m (List.mem_of_mem_filter declared)).2 x metric

theorem isFinite_customRow (made : ofTally t elapsed declared = .ok m) :
    ∀ row ∈ m.customRow?, ∀ x ∈ row.doubles, x.isFinite = true := by
  obtain ⟨rate, custom, -, collected, rfl⟩ := ofTally_ok_iff.1 made
  intro row present
  rw [customRow?] at present
  split at present
  · cases present
  · obtain rfl := Option.some.inj present
    exact (set_ofList (settable_of_collectCustom collected)).2

end ActionMetrics

namespace StreamOverview

theorem figures_ofStreams (stage : String) (streams : List StreamSeries) :
    (ofStreams stage streams).figures.entries =
      Measure.all.map fun m => (m, figuresOf streams m) :=
  rfl

theorem isFinite_figuresOf (streams : List StreamSeries) (measure : Measure) :
    ∀ x ∈ (figuresOf streams measure).values, x.isFinite = true :=
  Summary.isFinite_sanitized _

theorem isFinite_rateOf (figures interval : Summary Float) :
    (rateOf figures interval).isFinite = true :=
  Scalar.isFinite_finite _

theorem finite_rows (stage : String) (streams : List StreamSeries) :
    ∀ row ∈ (ofStreams stage streams).rows, (StreamRow.codec.write row).Finite := by
  intro row mem
  rw [rows_ofStreams] at mem
  obtain ⟨measure, -, rfl⟩ := List.mem_map.1 mem
  exact StreamRow.finite_write (isFinite_figuresOf streams measure)

/-- The same figures and the rates, as one record of the stage. -/
theorem isFinite_record (stage : String) (streams : List StreamSeries) :
    ∀ x ∈ (ofStreams stage streams).record.values, x.isFinite = true := by
  intro x mem
  obtain ⟨e, entry, rfl⟩ := List.mem_map.1 mem
  rcases List.mem_append.1 (Table.mem_of_mem_ofList entry) with figure | rate
  · obtain ⟨f, measured, figure⟩ := List.mem_flatMap.1 figure
    obtain ⟨named, field, rfl⟩ := List.mem_map.1 figure
    rw [figures_ofStreams] at measured
    obtain ⟨measure, -, rfl⟩ := List.mem_map.1 measured
    exact isFinite_figuresOf streams measure _ (List.of_mem_zip field).2
  · simp only [List.mem_cons, List.not_mem_nil, or_false] at rate
    rcases rate with rfl | rfl | rfl
    · exact isFinite_rateOf _ _
    · exact isFinite_rateOf _ _
    · exact isFinite_rateOf _ _

end StreamOverview

namespace MonitorReport

/-- All figures of a report are made from samples, so each of them was sanitized. -/
theorem exists_ofSamples {series : List MonitorSeries} {users : Table String UInt64}
    {f : MonitorFigures} (mem : f ∈ (ofSeries series users).stages ++
      (ofSeries series users).perUser ++ (ofSeries series users).session) :
    ∃ stage name kind samples, f = MonitorFigures.ofSamples stage name kind samples := by
  rcases List.mem_append.1 mem with staged | whole
  · rcases List.mem_append.1 staged with staged | shared
    · obtain ⟨g, -, rfl⟩ := List.mem_map.1 staged
      exact ⟨_, _, _, _, rfl⟩
    · obtain ⟨s, -, made⟩ := List.mem_filterMap.1 shared
      unfold perUserOf at made
      split_ifs at made with asked
      split at made
      · cases made
      · split_ifs at made with nobody
        exact ⟨_, _, _, _, (Option.some.inj made).symm⟩
  · obtain ⟨g, -, rfl⟩ := List.mem_map.1 whole
    exact ⟨_, _, _, _, rfl⟩

theorem finite_rows (series : List MonitorSeries) (users : Table String UInt64) :
    ∀ row ∈ (ofSeries series users).stageRows ++ (ofSeries series users).sessionRows,
      (MonitorRow.codec.write row).Finite := by
  intro row mem
  rw [stageRows, sessionRows, ← List.map_append] at mem
  obtain ⟨f, listed, rfl⟩ := List.mem_map.1 mem
  obtain ⟨stage, name, kind, samples, rfl⟩ := exists_ofSamples listed
  exact MonitorFigures.finite_row (Summary.isFinite_sanitized _)

end MonitorReport

/-- Whatever a stage measured, and whatever metrics it declared, its rows are written without a
double that is not finite: those of its actions, those of its streams, whose flat record is finite
too, and those of the monitors of a session. -/
theorem rows_finite :
    (∀ (t : Tally) (elapsed : Float) (declared : List CustomMetric) (m : ActionMetrics),
      ActionMetrics.ofTally t elapsed declared = .ok m →
        (CountRow.codec.write m.countRow).Finite ∧
        (∀ row ∈ m.phaseRows, (PhaseRow.codec.write row).Finite) ∧
        ∀ row ∈ m.customRow?, (CustomRow.codec.write row).Finite) ∧
    (∀ (stage : String) (streams : List StreamSeries),
      (∀ row ∈ (StreamOverview.ofStreams stage streams).rows, (StreamRow.codec.write row).Finite) ∧
      ∀ x ∈ (StreamOverview.ofStreams stage streams).record.values, x.isFinite = true) ∧
    ∀ (series : List MonitorSeries) (users : Table String UInt64),
      ∀ row ∈ (MonitorReport.ofSeries series users).stageRows ++
        (MonitorReport.ofSeries series users).sessionRows, (MonitorRow.codec.write row).Finite := by
  refine ⟨?_, ?_, MonitorReport.finite_rows⟩
  · intro t elapsed declared m made
    refine ⟨CountRow.finite_write (Scalar.isFinite_finite _), ?_, ?_⟩
    · intro row mem
      exact PhaseRow.finite_write (ActionMetrics.isFinite_phaseRows made row mem)
    · intro row present
      exact CustomRow.finite_write (ActionMetrics.isFinite_customRow made row present)
  · intro stage streams
    exact ⟨StreamOverview.finite_rows stage streams, StreamOverview.isFinite_record stage streams⟩

/-- A stage took so little time that its rate overflows, and one of its metrics is infinite. -/
theorem rows_finite_overflow :
    ∃ m row,
      ActionMetrics.ofTally ActionMetrics.oneLogin 5e-324 ActionMetrics.loginMetrics = .ok m ∧
      m.counts.rate.isFinite = false ∧ m.customRow? = some row ∧ row.metrics.keys.length = 4 ∧
      (CountRow.codec.write m.countRow).Finite ∧
      (∀ row ∈ m.phaseRows, (PhaseRow.codec.write row).Finite) ∧
      (CustomRow.codec.write row).Finite := by
  have rated : actionsPerSecond ActionMetrics.oneLogin.total 5e-324 = .ok (1.0 / 0.0) := by
    decide +kernel
  have collected : ActionMetrics.collectCustom ActionMetrics.loginMetrics =
      .ok (ActionMetrics.loginMetrics.map fun m => (m.name, m.normalized)) := by decide +kernel
  have made := ActionMetrics.ofTally_ok_iff.2 ⟨_, _, rated, collected, rfl⟩
  obtain ⟨count, phases, custom⟩ := rows_finite.1 _ _ _ _ made
  exact ⟨_, _, made, by decide +kernel, rfl, by decide +kernel, count, phases, custom _ rfl⟩

end BenchReport
