import BenchReport.Proofs.Json.Codecs
import BenchReport.Proofs.Session.Admission
set_option autoImplicit false

namespace BenchReport

open Json Fields

variable {n : Nat}

theorem Scalar.isFinite_finite (x : Float) : (Scalar.finite x).isFinite = true := by
  unfold Scalar.finite
  split
  · assumption
  · decide +kernel

theorem Summary.isFinite_sanitized (s : Summary Float) :
    ∀ x ∈ s.sanitized.values, x.isFinite = true := by
  have mapped : s.sanitized.values = s.values.map Scalar.finite := by
    simp only [sanitized, map, values, List.map_append, List.map_cons, List.map_nil,
      Vector.toList_map]
  intro x mem
  rw [mapped] at mem
  obtain ⟨y, -, rfl⟩ := List.mem_map.1 mem
  exact Scalar.isFinite_finite y

namespace MetricValue

def double? : MetricValue → Option Float
  | integer _ => none
  | float x => some x

theorem isFinite_sanitized (v : MetricValue) : ∀ x ∈ v.sanitized.double?, x.isFinite = true := by
  cases v with
  | integer i => exact fun x mem => nomatch mem
  | float y =>
      intro x mem
      obtain rfl := Option.some.inj mem
      exact Scalar.isFinite_finite y

theorem codec_restores {v : MetricValue} (readable : ∀ x ∈ v.double?, Readable x) :
    codec.Restores n v := by
  cases v with
  | integer i =>
      have low : Int64.minValue.toInt ≤ i.toInt := i.minValue_le_toInt
      have high : i.toInt ≤ Int64.maxValue.toInt := i.toInt_le
      have fits : fitsInt64 i.toInt = true := by
        rw [fitsInt64, Bool.and_eq_true, decide_eq_true_iff, decide_eq_true_iff]
        exact ⟨low, high⟩
      have below : Int64.maxValue.toInt < UInt64.size := by decide
      refine ⟨.number (Number.rereads_int low (by omega)), fun m => ?_⟩
      change Except.ok (if fitsInt64 i.toInt then integer (Int64.ofInt i.toInt)
        else float (Codec.floatOfInt i.toInt)) = .ok (integer i)
      rw [if_pos fits, Int64.ofInt_toInt]
  | float x => exact ⟨.number (Number.rereads_float (readable x rfl)), fun _ => rfl⟩

end MetricValue

namespace CustomMetric

theorem isFinite_normalized (m : CustomMetric) :
    ∀ x ∈ m.normalized.value.double?, x.isFinite = true := by
  have cases : (∃ i, m.normalized.value = .integer i) ∨
      ∃ v : MetricValue, m.normalized.value = v.sanitized := by
    simp only [normalized]
    split
    · split
      · exact .inl ⟨_, rfl⟩
      · exact .inr ⟨_, rfl⟩
    · exact .inr ⟨_, rfl⟩
  rcases cases with ⟨i, whole⟩ | ⟨v, sanitized⟩
  · rw [whole]
    exact fun x mem => nomatch mem
  · rw [sanitized]
    exact v.isFinite_sanitized

end CustomMetric

namespace Summary

theorem document_keeps {s : Summary Float} (readable : ∀ x ∈ s.values, Readable x) :
    document.Keeps n s s := by
  obtain ⟨median, mean, variance, stdev, minimum, maximum, quantiles⟩ := s
  simp only [values, List.mem_append, List.mem_cons, List.not_mem_nil, or_false] at readable
  have level (i : Fin 13) : Readable quantiles[i] :=
    readable _ (.inr (Vector.mem_toList_iff.2 (Vector.getElem_mem i.isLt)))
  have all : Vector.ofFn (fun i : Fin 13 => quantiles[i]) = quantiles := Vector.ofFn_getElem
  have kept : (vector 13 fun i => required (Stats.levelName Stats.levels[i]) Codec.float
      fun s : Summary Float => s.quantiles[i]).Keeps n
      ⟨median, mean, variance, stdev, minimum, maximum, quantiles⟩
      (Vector.ofFn fun i : Fin 13 => quantiles[i]) :=
    vector_keeps fun i => required_keeps (Codec.float_restores (level i))
  rw [all] at kept
  refine .seq (.seq (.seq (.seq (.seq (.seq (.map _ ?_) ?_) ?_) ?_) ?_) ?_) kept
  · exact required_keeps (Codec.float_restores (readable median (by simp)))
  · exact required_keeps (Codec.float_restores (readable mean (by simp)))
  · exact required_keeps (Codec.float_restores (readable variance (by simp)))
  · exact required_keeps (Codec.float_restores (readable stdev (by simp)))
  · exact required_keeps (Codec.float_restores (readable minimum (by simp)))
  · exact required_keeps (Codec.float_restores (readable maximum (by simp)))

theorem written_document (s : Summary Float) : (document.write s).map (·.1) = names := rfl

end Summary

def Json.Atomic : Json → Prop
  | .list _ | .record _ => False
  | _ => True

theorem Json.Plain.atomic {j : Json} (plain : j.Plain 0) : j.Atomic := by
  cases plain <;> trivial

/-- A value is written as one record of numbers and texts under distinct names, and is read back
from the text of the record and from the record itself. -/
structure Codec.Flat {α : Type} (c : Codec α) (a : α) : Prop where
  record : ∃ fields, c.write a = .record fields ∧ (fields.map (·.1)).Nodup ∧
    ∀ e ∈ fields, e.2.Atomic
  ofText : c.ofText (c.toText a) = .ok a
  ofJson : c.ofJson (c.write a) = .ok a

/-- A record stays flat when a table is set into it whose keys name none of its other fields. -/
theorem Codec.flat_others {α β : Type} {title : String} {fs : Fields α (Table String β → α)}
    {c : Codec β} {get : α → Table String β} {a : α} {make : Table String β → α}
    (keeps : fs.Keeps 0 a make) (remade : make (get a) = a) (distinct : fs.names.Nodup)
    (once : ((fs.write a).map (·.1)).Nodup)
    (restores : ∀ e ∈ (get a).entries, c.Restores 0 e.2)
    (apart : ∀ k ∈ (get a).keys, k ∉ fs.names) :
    (Codec.record title (fs <*> others c get)).Flat a := by
  have written : (fs <*> others c get).write a =
      fs.write a ++ (get a).entries.map fun e => (e.1, c.write e.2) := rfl
  have table : (((get a).entries.map fun e => (e.1, c.write e.2)).map (·.1)) = (get a).keys := by
    rw [List.map_map]
    rfl
  have unnamed : ∀ e ∈ (others c get).write a, e.1 ∉ fs.names := by
    intro e mem
    apply apart
    rw [← table]
    exact List.mem_map_of_mem mem
  have whole := keeps.seqFree (others_restores restores) unnamed
  rw [remade] at whole
  have names : (fs <*> others c get).names.Nodup := by
    rw [(names_seq_perm fs (others c get)).nodup_iff]
    exact (List.append_nil fs.names).symm ▸ distinct
  have read : (Codec.record title (fs <*> others c get)).Restores 1 a :=
    Codec.record_restores whole names
  refine ⟨⟨_, rfl, ?_, fun e mem => (whole.plain e mem).atomic⟩, read.rereads (by decide),
    read.reads .value⟩
  rw [written, List.map_append, table, List.nodup_append]
  refine ⟨once, (get a).nodup_keys, ?_⟩
  intro k own k' key same
  obtain ⟨e, mem, rfl⟩ := List.mem_map.1 own
  exact apart k' key (same ▸ keeps.closed e mem)

theorem MetricValue.readable_of_values {t : Table String MetricValue}
    (readable : ∀ x ∈ t.values.filterMap double?, Readable x) :
    ∀ e ∈ t.entries, codec.Restores n e.2 := by
  intro e mem
  apply codec_restores
  intro x double
  exact readable x (List.mem_filterMap.2 ⟨e.2, List.mem_map_of_mem mem, double⟩)

def PhaseRow.doubles (row : PhaseRow) : List Float :=
  row.stats.values ++ row.custom.values.filterMap MetricValue.double?

theorem PhaseRow.flat {row : PhaseRow} (readable : ∀ x ∈ row.doubles, Readable x)
    (apart : ∀ k ∈ row.custom.keys, k ∉ CustomMetric.reservedNames) : codec.Flat row := by
  have stats := fun x mem => readable x (List.mem_append_left _ mem)
  have custom := fun x mem => readable x (List.mem_append_right _ mem)
  obtain ⟨name, stage, group, figures, metrics⟩ := row
  refine Codec.flat_others (.seq (.seq (.seq (.map _ ?_) ?_) ?_) (inline_keeps ?_)) rfl
    (by decide) ?_ (MetricValue.readable_of_values custom) apart
  · exact required_text_keeps
  · exact required_text_keeps
  · exact required_text_keeps
  · exact Summary.document_keeps stats
  · show (CustomMetric.identityNames ++ (Summary.document.write figures).map (·.1)).Nodup
    rw [Summary.written_document]
    decide

def CustomRow.doubles (row : CustomRow) : List Float :=
  row.metrics.values.filterMap MetricValue.double?

theorem CustomRow.flat {row : CustomRow} (readable : ∀ x ∈ row.doubles, Readable x)
    (apart : ∀ k ∈ row.metrics.keys, k ∉ CustomMetric.identityNames) : codec.Flat row := by
  obtain ⟨name, stage, group, metrics⟩ := row
  refine Codec.flat_others (.seq (.seq (.map _ ?_) ?_) ?_) rfl (by decide) ?_
    (MetricValue.readable_of_values readable) apart
  · exact required_text_keeps
  · exact required_text_keeps
  · exact required_text_keeps
  · show CustomMetric.identityNames.Nodup
    decide

namespace ActionMetrics

theorem collectCustom_ok {declared : List CustomMetric} {custom : List (String × CustomMetric)}
    (collected : collectCustom declared = .ok custom) :
    custom = declared.map fun m => (m.name, m.normalized) := by
  induction declared generalizing custom with
  | nil => exact (Except.ok.inj collected).symm
  | cons m rest ih =>
      obtain ⟨_, -, collected⟩ := Outcome.bind_ok collected
      obtain ⟨more, later, collected⟩ := Outcome.bind_ok collected
      rw [List.map_cons, ← ih later]
      exact (Except.ok.inj collected).symm

/-- A custom metric that may stand in a row: its name is no field of the row, and it is finite. -/
structure Settable (m : CustomMetric) : Prop where
  unreserved : m.name ∉ CustomMetric.reservedNames
  finite : ∀ x ∈ m.value.double?, x.isFinite = true

/-- All custom metrics that are admitted may stand in a row. -/
theorem settable_of_collectCustom {declared : List CustomMetric}
    {custom : List (String × CustomMetric)} (collected : collectCustom declared = .ok custom) :
    ∀ m ∈ (Table.ofList custom).values, Settable m := by
  intro m mem
  obtain ⟨e, bound, rfl⟩ := List.mem_map.1 mem
  have listed := Table.mem_of_mem_ofList bound
  rw [collectCustom_ok collected] at listed
  obtain ⟨d, admitted, rfl⟩ := List.mem_map.1 listed
  refine ⟨fun reserved => ?_, d.isFinite_normalized⟩
  exact not_flaw_of_collectCustom collected admitted _ (.reserved reserved)

/-- The table of some metrics by name has unreserved keys and finite values. -/
theorem set_ofList {ms : List CustomMetric} (settable : ∀ m ∈ ms, Settable m) :
    (∀ k ∈ (Table.ofList (ms.map fun m => (m.name, m.value))).keys,
      k ∉ CustomMetric.reservedNames) ∧
    ∀ x ∈ (Table.ofList (ms.map fun m => (m.name, m.value))).values.filterMap MetricValue.double?,
      x.isFinite = true := by
  have bound : ∀ e ∈ (Table.ofList (ms.map fun m => (m.name, m.value))).entries,
      e.1 ∉ CustomMetric.reservedNames ∧ ∀ x ∈ e.2.double?, x.isFinite = true := by
    intro e mem
    obtain ⟨m, listed, rfl⟩ := List.mem_map.1 (Table.mem_of_mem_ofList mem)
    exact ⟨(settable m listed).unreserved, (settable m listed).finite⟩
  constructor
  · intro k key
    obtain ⟨e, mem, rfl⟩ := List.mem_map.1 key
    exact (bound e mem).1
  · intro x double
    obtain ⟨v, value, double⟩ := List.mem_filterMap.1 double
    obtain ⟨e, mem, rfl⟩ := List.mem_map.1 value
    exact (bound e mem).2 x double

theorem reserved_of_identity : ∀ k ∈ CustomMetric.identityNames, k ∈ CustomMetric.reservedNames :=
  fun _ => List.mem_append_left _

/-- Whatever metrics a stage declares, all rows of an action that are made with them are flat
records and read back, as soon as the finite doubles in them have texts that read back. -/
theorem rows_flat {t : Tally} {elapsed : Float} {declared : List CustomMetric} {m : ActionMetrics}
    (made : ofTally t elapsed declared = .ok m) :
    (∀ row ∈ m.phaseRows, (∀ x ∈ row.doubles, x.isFinite = true → Readable x) →
      PhaseRow.codec.Flat row) ∧
    ∀ row ∈ m.customRow?, (∀ x ∈ row.doubles, x.isFinite = true → Readable x) →
      CustomRow.codec.Flat row := by
  obtain ⟨rate, custom, -, collected, rfl⟩ := ofTally_ok_iff.1 made
  have settable := settable_of_collectCustom collected
  constructor
  · intro row mem readable
    rw [phaseRows_written] at mem
    obtain ⟨p, -, rfl⟩ := List.mem_map.1 mem
    obtain ⟨apart, finite⟩ := set_ofList fun m (mem : m ∈ (Table.ofList custom).values.filter
      fun m => m.group == p.name) => settable m (List.mem_of_mem_filter mem)
    refine PhaseRow.flat (fun x double => readable x double ?_) apart
    rcases List.mem_append.1 double with figure | metric
    · exact Summary.isFinite_sanitized _ x figure
    · exact finite x metric
  · intro row present readable
    obtain ⟨apart, finite⟩ := set_ofList settable
    rw [customRow?] at present
    split at present
    · cases present
    · obtain rfl := Option.some.inj present
      refine CustomRow.flat (fun x double => readable x double (finite x double)) ?_
      intro k key identity
      exact apart k key (reserved_of_identity k identity)

/-- An action whose least time is no number. -/
def oneLogin : Tally :=
  { Tally.empty "log in" "peak" with
    total := 1
    succeeded := 1
    summaries := PerPhase.ofFn fun p =>
      if p = .total then some { Summary.zero with mean := 0.1, maximum := 1e300, minimum := 0.0 / 0.0 }
      else none }

def loginMetrics : List CustomMetric :=
  [⟨"retries", "", .float 3.0, "custom", .count⟩,
    ⟨"\u00e9 \"mean\"\n", "m", .float 0.25, "total", .rate⟩,
    ⟨"Name", "", .integer (-7), "total", .sample⟩,
    ⟨"lag", "", .float (1.0 / 0.0), "waiting", .distribution⟩]

theorem rows_flat_login : ∃ m row, ofTally oneLogin 2.0 loginMetrics = .ok m ∧
    m.phaseRows.map (fun row => row.custom.keys.length) = [2, 1, 0, 0, 0] ∧
    m.customRow? = some row ∧ row.metrics.keys.length = 4 ∧
    (∀ row ∈ m.phaseRows, PhaseRow.codec.Flat row) ∧ CustomRow.codec.Flat row := by
  have rated : actionsPerSecond oneLogin.total 2.0 = .ok 0.5 := by decide +kernel
  have collected : collectCustom loginMetrics =
      .ok (loginMetrics.map fun m => (m.name, m.normalized)) := by decide +kernel
  have made := ofTally_ok_iff.2 ⟨_, _, rated, collected, rfl⟩
  obtain ⟨phases, custom⟩ := rows_flat made
  refine ⟨_, _, made, by decide +kernel, rfl, by decide +kernel, ?_, ?_⟩
  · intro row mem
    apply phases row mem
    revert row
    decide +kernel
  · apply custom _ rfl
    decide +kernel

end ActionMetrics

end BenchReport
