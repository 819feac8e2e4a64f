import BenchReport.Proofs.Metric.Rereading
import BenchReport.Proofs.Tally.Usage
set_option autoImplicit false

namespace BenchReport

open Double (Positive)

namespace CustomMetric

/-- A metric has one flaw at most: no reserved name is blank. -/
theorem validate_of_flaw {m : CustomMetric} {e : Error} (flaw : m.Flaw e) :
    m.validate = .error e := by
  have shown : ∀ name ∈ reservedNames, Text.isBlankText name = false := by decide
  unfold validate
  cases flaw with
  | blank blank => rw [if_pos blank]
  | reserved reserved =>
      rw [if_neg (by rw [shown _ reserved]; exact Bool.false_ne_true),
        if_pos (List.contains_iff_mem.2 reserved)]

theorem validate_of_sound {m : CustomMetric} (sound : ∀ e, ¬ m.Flaw e) : m.validate = .ok () := by
  cases checked : m.validate with
  | error e => exact absurd (validate_error checked) (sound e)
  | ok _ => rfl

theorem Flaw.kind {m : CustomMetric} {e : Error} (flaw : m.Flaw e) : e.kind = .invalidInput := by
  cases flaw <;> rfl

end CustomMetric

namespace ActionMetrics

/-- Metrics without a flaw are collected under their names. -/
theorem collectCustom_sound {declared : List CustomMetric}
    (sound : ∀ d ∈ declared, ∀ e, ¬ d.Flaw e) :
    collectCustom declared = .ok (declared.map fun d => (d.name, d.normalized)) := by
  induction declared with
  | nil => rfl
  | cons d rest ih =>
      obtain ⟨first, others⟩ := List.forall_mem_cons.1 sound
      rw [collectCustom, CustomMetric.validate_of_sound first, ih others]
      rfl

/-- Of metrics with flaws the first one decides the error. -/
theorem collectCustom_flawed {front back : List CustomMetric} {d : CustomMetric} {e : Error}
    (sound : ∀ d' ∈ front, ∀ e', ¬ d'.Flaw e') (flaw : d.Flaw e) :
    collectCustom (front ++ d :: back) = .error e := by
  induction front with
  | nil =>
      rw [List.nil_append, collectCustom, CustomMetric.validate_of_flaw flaw]
      rfl
  | cons d' rest ih =>
      obtain ⟨first, others⟩ := List.forall_mem_cons.1 sound
      rw [List.cons_append, collectCustom, CustomMetric.validate_of_sound first, ih others]
      rfl

/-- The values of the custom metrics that were declared for a group, by name. -/
def Selects (custom : Table String CustomMetric) (group : String)
    (values : Table String MetricValue) : Prop :=
  ∀ name v, values.get? name = some v ↔
    ∃ c, custom.get? name = some c ∧ c.group = group ∧ c.value = v

/-- The metrics are those of a tally, with the custom metrics that were declared. -/
structure Presents (m : ActionMetrics) (t : Tally) (declared : List CustomMetric) : Prop where
  name : m.name = t.name
  source : m.source = t.source
  stage : m.stage = t.stage
  total : m.counts.total = t.total
  succeeded : m.counts.succeeded = t.succeeded
  failed : m.counts.failed = t.failed
  phases : m.phases.present.map (·.1) = Phase.all
  /-- Each phase has its figures and the metrics that were declared for it. -/
  phase (p : Phase) : ∃ x, m.phases.get p = some x ∧ x.phase = p ∧
    x.stats = ((t.summaries.get p).getD .zero).sanitized ∧ Selects m.custom p.name x.custom
  errors : m.errors.map (fun e => (e.message, e.count)) = t.errors.entries
  errorsAscend : m.errors.Pairwise fun x y => compare x.message y.message = .lt
  tags : m.tags = t.tags.tags
  tagsAscend : m.tags.Pairwise fun x y => compare x y = .lt
  /-- Of the metrics of a name the last one counts. -/
  custom (name : String) : m.custom.get? name =
    (declared.reverse.find? fun d => d.name = name).map CustomMetric.normalized
  noCustomRow : m.customRow? = none ↔ declared = []
  customRow : ∀ row ∈ m.customRow?, row.metrics.entries =
    m.custom.entries.map fun e => (e.1, e.2.value)
  phaseRows : List.Forall₂ (fun p row => row.group = p.name ∧ Selects m.custom p.name row.custom)
    Phase.all m.phaseRows

def customTable (declared : List CustomMetric) : Table String CustomMetric :=
  Table.ofList (declared.map fun d => (d.name, d.normalized))

theorem get?_customTable (declared : List CustomMetric) (name : String) :
    (customTable declared).get? name =
      (declared.reverse.find? fun d => d.name = name).map CustomMetric.normalized := by
  rw [customTable, Table.get?_ofList, ← List.map_reverse, List.find?_map, Option.map_map]
  rfl

/-- Each custom metric stands under its own name. -/
theorem name_of_get? {declared : List CustomMetric} {name : String} {c : CustomMetric}
    (bound : (customTable declared).get? name = some c) : c.name = name := by
  have mem := Table.mem_of_mem_ofList ((Table.mem_entries_iff _ _ _).2 bound)
  obtain ⟨d, -, same⟩ := List.mem_map.1 mem
  cases same
  rfl

theorem mem_values_iff {declared : List CustomMetric} {c : CustomMetric} :
    c ∈ (customTable declared).values ↔ (customTable declared).get? c.name = some c := by
  rw [← Table.mem_entries_iff, Table.values, List.mem_map]
  constructor
  · rintro ⟨⟨name, c⟩, mem, rfl⟩
    rwa [name_of_get? ((Table.mem_entries_iff _ _ _).1 mem)]
  · exact fun mem => ⟨_, mem, rfl⟩

theorem values_customTable (declared : List CustomMetric) :
    (customTable declared).values.map (fun c => (c.name, c.value)) =
      (customTable declared).entries.map fun e => (e.1, e.2.value) := by
  rw [Table.values, List.map_map]
  refine List.map_congr_left fun e mem => ?_
  have named := name_of_get? ((Table.mem_entries_iff _ e.1 e.2).1 mem)
  exact Prod.ext named rfl

theorem nodup_names_customTable (declared : List CustomMetric) :
    ((customTable declared).values.map fun c => c.name).Nodup := by
  have names := congrArg (List.map Prod.fst) (values_customTable declared)
  rw [List.map_map, List.map_map] at names
  exact (congrArg List.Nodup names).mpr (customTable declared).nodup_keys

theorem customOf_selects (declared : List CustomMetric) (p : Phase) :
    Selects (customTable declared) p.name (customOf (customTable declared) p) := by
  intro name v
  have distinct : ((((customTable declared).values.filter fun c => c.group == p.name).map
      fun c => (c.name, c.value)).map (·.1)).Nodup := by
    rw [List.map_map]
    exact (List.filter_sublist.map _).nodup (nodup_names_customTable declared)
  rw [customOf, Table.get?_ofList_iff distinct, List.mem_map]
  constructor
  · rintro ⟨c, mem, same⟩
    cases same
    obtain ⟨listed, own⟩ := List.mem_filter.1 mem
    exact ⟨c, mem_values_iff.1 listed, beq_iff_eq.1 own, rfl⟩
  · rintro ⟨c, bound, own, rfl⟩
    obtain rfl := name_of_get? bound
    exact ⟨c, List.mem_filter.2 ⟨mem_values_iff.2 bound, beq_iff_eq.2 own⟩, rfl⟩

theorem customTable_isEmpty (declared : List CustomMetric) :
    (customTable declared).isEmpty = true ↔ declared = [] := by
  rw [Table.isEmpty_iff]
  constructor
  · intro none
    cases declared with
    | nil => rfl
    | cons d rest =>
        have absent := none d.name
        rw [get?_customTable, Option.map_eq_none_iff, List.find?_eq_none] at absent
        exact absurd (decide_eq_true rfl) (absent d (List.mem_reverse.2 List.mem_cons_self))
  · rintro rfl k
    rfl

theorem presents_written (t : Tally) (rate : Float) (declared : List CustomMetric) :
    (written t rate (customTable declared)).Presents t declared where
  name := rfl
  source := rfl
  stage := rfl
  total := rfl
  succeeded := rfl
  failed := rfl
  phases := rfl
  phase p := ⟨_, PerPhase.get_ofFn _ p, rfl, rfl, customOf_selects declared p⟩
  errors := by
    change (t.errors.entries.map _).map _ = t.errors.entries
    rw [List.map_map]
    exact List.map_id _
  errorsAscend := List.pairwise_map.2 t.errors.ascending
  tags := rfl
  tagsAscend := List.pairwise_map.2 t.tags.ascending
  custom := get?_customTable declared
  noCustomRow := by
    rw [← customTable_isEmpty, customRow?]
    change (if (customTable declared).isEmpty then none else some _) = none ↔ _
    split <;> simp [*]
  customRow row present := by
    rw [customRow?] at present
    split at present
    · cases present
    · cases present
      change (Table.ofList ((customTable declared).values.map _)).entries = _
      rw [values_customTable]
      exact congrArg Table.entries (Table.ofList_entries ((customTable declared).map (·.value)))
  phaseRows := by
    rw [phaseRows_written, List.forall₂_map_right_iff, List.forall₂_same]
    exact fun p _ => ⟨rfl, customOf_selects declared p⟩

/-- Whether a tally comes to metrics depends on the duration of the stage and on the custom metrics:
a duration that is not positive is refused first, then the first metric whose name is blank or
reserved. Otherwise the metrics are those of the tally, and all its failures are accounted for. -/
theorem ofTally_decided (u : Usage) (elapsed : Float) (declared : List CustomMetric) :
    (¬ Positive elapsed → ofTally u.tally elapsed declared = .error (.elapsed elapsed) ∧
      (Error.elapsed elapsed).kind = .invariant) ∧
    (Positive elapsed → ∀ front d back e, declared = front ++ d :: back →
      (∀ d' ∈ front, ∀ e', ¬ d'.Flaw e') → d.Flaw e →
        ofTally u.tally elapsed declared = .error e ∧ e.kind = .invalidInput) ∧
    (Positive elapsed → (∀ d ∈ declared, ∀ e, ¬ d.Flaw e) →
      ∃ m, ofTally u.tally elapsed declared = .ok m ∧ m.Presents u.tally declared ∧
        (m.errors.map fun e => e.count).sum = m.counts.failed ∧
        (u.history.length < 2 ^ 64 →
          (m.errors.map fun e => e.count.toNat).sum = m.counts.failed.toNat)) := by
  refine ⟨?_, ?_, ?_⟩
  · intro refused
    refine ⟨?_, rfl⟩
    rw [ofTally, actionsPerSecond_error refused]
    rfl
  · rintro positive front d back e rfl sound flaw
    obtain ⟨rate, rated⟩ := actionsPerSecond_ok u.tally.total positive
    refine ⟨?_, flaw.kind⟩
    rw [ofTally, rated, collectCustom_flawed sound flaw]
    rfl
  · intro positive sound
    obtain ⟨rate, rated⟩ := actionsPerSecond_ok u.tally.total positive
    have made := ofTally_ok_iff.2 ⟨rate, _, rated, collectCustom_sound sound, rfl⟩
    refine ⟨_, made, presents_written u.tally rate declared, ?_, fun fits => ?_⟩
    · change ((u.tally.errors.entries.map _).map _).sum = u.tally.failed
      rw [List.map_map]
      exact u.addsUp
    · have sum := ((u.untaken fits).faithful fits).errorSum
      rw [Table.values, List.map_map] at sum
      change ((u.tally.errors.entries.map _).map _).sum = u.tally.failed.toNat
      rw [List.map_map]
      exact sum

def oneTimeout : Usage :=
  ((Usage.start "log in" "peak").add (.timed "log in" 0.5 (some "timeout")) "peak").takeMoments

/-- A metric that is declared twice, for two phases, and one that is declared for none. -/
def redeclared : List CustomMetric :=
  [⟨"lag", "l", .float 0.25, "total", .rate⟩, ⟨"retries", "", .integer 2, "custom", .count⟩,
    ⟨"lag", "", .float 3.0, "waiting", .count⟩]

theorem ofTally_decided_redeclared :
    ofTally oneTimeout.tally 0.0 (redeclared ++ [⟨"mean", "", .integer 1, "total", .sample⟩]) =
        .error (.elapsed 0.0) ∧
      ofTally oneTimeout.tally 2.0 (redeclared ++ ⟨"mean", "", .integer 1, "total", .sample⟩ ::
        [⟨" ", "", .integer 1, "total", .sample⟩]) = .error (.reservedMetric "mean") ∧
      ∃ m, ofTally oneTimeout.tally 2.0 redeclared = .ok m ∧
        m.custom.get? "lag" = some ⟨"lag", "lag", .integer 3, "waiting", .count⟩ ∧
        m.phaseRows.map (fun row => row.custom.keys) = [[], ["lag"], [], [], []] ∧
        m.Presents oneTimeout.tally redeclared ∧
        (m.errors.map fun e => e.count.toNat).sum = m.counts.failed.toNat := by
  have sound : ∀ d ∈ redeclared, ∀ e, ¬ d.Flaw e := by
    intro d mem
    refine CustomMetric.not_flaw_of_validate ?_
    revert d
    decide +kernel
  have positive : Positive 2.0 := ⟨by decide +kernel, by decide +kernel⟩
  have refused : ¬ Positive 0.0 := fun positive => absurd positive.2 (by decide +kernel)
  have reserved : (⟨"mean", "", .integer 1, "total", .sample⟩ : CustomMetric).Flaw
      (.reservedMetric "mean") := .reserved (by decide)
  refine ⟨?_, ?_, ?_⟩
  · exact ((ofTally_decided oneTimeout 0.0 _).1 refused).1
  · exact ((ofTally_decided oneTimeout 2.0 _).2.1 positive redeclared _ _ _ rfl sound reserved).1
  · obtain ⟨m, made, presents, -, errors⟩ :=
      (ofTally_decided oneTimeout 2.0 redeclared).2.2 positive sound
    have fits : oneTimeout.history.length < 2 ^ 64 := by decide +kernel
    have rated : actionsPerSecond oneTimeout.tally.total 2.0 = .ok 0.5 := by decide +kernel
    have same := made.symm.trans
      (ofTally_ok_iff.2 ⟨_, _, rated, collectCustom_sound sound, rfl⟩)
    refine ⟨m, made, ?_, ?_, presents, errors fits⟩
    · rw [presents.custom]
      decide +kernel
    · rw [Except.ok.inj same]
      decide +kernel

end ActionMetrics

end BenchReport
