import BenchReport.Monitor
import BenchReport.Proofs.Experiments
set_option autoImplicit false

namespace BenchReport

theorem MonitorKind.name_injective {k k' : MonitorKind} (same : k.name = k'.name) : k = k' := by
  have distinct : ∀ k ∈ all, ∀ k' ∈ all, k.name = k'.name → k = k' := by decide
  exact distinct k (by cases k <;> decide) k' (by cases k' <;> decide) same

namespace MonitorReport

def perUserSuffix : String := "_mb_per_vu"

/-- A name that no figures per user have. -/
def Plain (name : String) : Prop := ¬ perUserSuffix.toList <:+ name.toList

instance (name : String) : Decidable (Plain name) :=
  inferInstanceAs (Decidable (¬ perUserSuffix.toList <:+ name.toList))

theorem not_plain_perUser (name : String) : ¬ Plain (name ++ perUserSuffix) := by
  unfold Plain
  rw [Decidable.not_not, String.toList_append]
  exact List.suffix_append name.toList perUserSuffix.toList

def usersOf (users : Table String UInt64) (stage : String) : UInt64 := (users.get? stage).getD 0

/-- What turns bytes into megabytes per user of a stage. -/
def divisorOf (users : Table String UInt64) (stage : String) : Float :=
  megabyte * Double.ofCount (usersOf users stage)

/-- A series of which memory per user is wanted. -/
def Visible (s : MonitorSeries) : Prop := s.kind = .memory ∧ s.perUser = true

instance : DecidablePred Visible := fun s =>
  inferInstanceAs (Decidable (s.kind = .memory ∧ s.perUser = true))

/-- A series that gives rise to figures per user: its stage must have had users. -/
def Derives (users : Table String UInt64) (s : MonitorSeries) : Prop :=
  Visible s ∧ usersOf users s.stage ≠ 0

instance (users : Table String UInt64) : DecidablePred (Derives users) := fun s =>
  inferInstanceAs (Decidable (Visible s ∧ usersOf users s.stage ≠ 0))

def placeOf (s : MonitorSeries) : String × String := (s.stage, s.name)

def perUserFigures (users : Table String UInt64) (place : String × String)
    (samples : List Float) : MonitorFigures :=
  .ofSamples (some place.1) (place.2 ++ perUserSuffix) .memory
    (samples.map (· / divisorOf users place.1))

theorem perUserOf_eq (users : Table String UInt64) (s : MonitorSeries) :
    perUserOf users s =
      if Derives users s then some (perUserFigures users (placeOf s) s.samples) else none := by
  unfold perUserOf
  by_cases visible : Visible s
  · have wanted : s.kind = .memory ∧ s.perUser = true := visible
    rw [if_pos wanted]
    cases known : users.get? s.stage with
    | none =>
        have idle : usersOf users s.stage = 0 := by simp [usersOf, known]
        have underived : ¬ Derives users s := fun derives => derives.2 idle
        rw [if_neg underived]
    | some n =>
        have count : usersOf users s.stage = n := by simp [usersOf, known]
        by_cases idle : n = 0
        · have underived : ¬ Derives users s := fun derives => derives.2 (count.trans idle)
          simp only [idle, underived, ↓reduceIte]
        · have derives : Derives users s := ⟨visible, fun none => idle (count.symm.trans none)⟩
          simp only [idle, derives, ↓reduceIte, perUserFigures, divisorOf, placeOf, count]
          rfl
  · have underived : ¬ Derives users s := fun derives => visible derives.1
    rw [if_neg underived]
    exact if_neg visible

theorem perUser_eq (series : List MonitorSeries) (users : Table String UInt64) :
    (ofSeries series users).perUser = (series.filter (Derives users ·)).map fun s =>
      perUserFigures users (placeOf s) s.samples := by
  change series.filterMap (perUserOf users) = _
  induction series with
  | nil => rfl
  | cons s rest ih =>
      rw [List.filterMap_cons, perUserOf_eq, ih]
      by_cases derives : Derives users s
      · simp [derives]
      · simp [derives]

def keyOf (row : MonitorRow) : Option String × String × String := (row.stage, row.name, row.group)

theorem keys_byStage (series : List MonitorSeries) :
    ((byStage series).map fun f => keyOf f.row) =
      ((Grouped.ofList (fun s => (s.stage, s.name, s.kind)) series).map Prod.fst).map
        fun k => (some k.1, k.2.1, k.2.2.name) := by
  rw [byStage, List.map_map, List.map_map]
  rfl

/-- A monitor has one entry of each kind in a stage, however many series it came in. -/
theorem nodup_keys_byStage (series : List MonitorSeries) :
    ((byStage series).map fun f => keyOf f.row).Nodup := by
  rw [keys_byStage]
  apply List.Nodup.map _ (Grouped.ofList_groups _ series).distinct
  intro k k' same
  obtain ⟨stage, name, kind⟩ := k
  obtain ⟨stage', name', kind'⟩ := k'
  simp only [Prod.mk.injEq, Option.some.injEq] at same ⊢
  exact ⟨same.1, same.2.1, MonitorKind.name_injective same.2.2⟩

theorem plain_byStage {series : List MonitorSeries} (plain : ∀ s ∈ series, Plain s.name) :
    ∀ k ∈ (byStage series).map (fun f => keyOf f.row), Plain k.2.1 := by
  intro k mem
  rw [keys_byStage, List.mem_map] at mem
  obtain ⟨group, listed, rfl⟩ := mem
  obtain ⟨s, known, rfl⟩ := List.mem_map.1 (((Grouped.ofList_groups _ series).keys group).1 listed)
  exact plain s known

def perUserKey (place : String × String) : Option String × String × String :=
  (some place.1, place.2 ++ perUserSuffix, MonitorKind.memory.name)

theorem perUserKey_injective : Function.Injective perUserKey := by
  intro place place' same
  obtain ⟨stage, name⟩ := place
  obtain ⟨stage', name'⟩ := place'
  simp only [perUserKey, Prod.mk.injEq, Option.some.injEq, and_true] at same ⊢
  refine ⟨same.1, ?_⟩
  have letters := congrArg String.toList same.2
  rw [String.toList_append, String.toList_append] at letters
  exact String.toList_inj.1 (List.append_cancel_right letters)

theorem keys_perUser (series : List MonitorSeries) (users : Table String UInt64) :
    ((ofSeries series users).perUser.map fun f => keyOf f.row) =
      ((series.filter (Derives users ·)).map placeOf).map perUserKey := by
  rw [perUser_eq, List.map_map, List.map_map]
  rfl

/-- Where no monitor is named like figures per user, the rows of the stages have distinct keys
exactly when no two series of a monitor in a stage give rise to figures per user. -/
theorem nodup_stageRows_iff {series : List MonitorSeries} {users : Table String UInt64}
    (plain : ∀ s ∈ series, Plain s.name) :
    ((ofSeries series users).stageRows.map keyOf).Nodup ↔
      ((series.filter (Derives users ·)).map placeOf).Nodup := by
  have keys : (ofSeries series users).stageRows.map keyOf =
      (byStage series).map (fun f => keyOf f.row) ++
        ((series.filter (Derives users ·)).map placeOf).map perUserKey := by
    rw [← keys_perUser, stageRows, List.map_append, List.map_append, List.map_map, List.map_map]
    rfl
  rw [keys, List.nodup_append, List.nodup_map_iff perUserKey_injective]
  constructor
  · intro parts
    exact parts.2.1
  · intro distinct
    refine ⟨nodup_keys_byStage series, distinct, ?_⟩
    intro k stage k' derived same
    obtain ⟨place, -, rfl⟩ := List.mem_map.1 derived
    have named := plain_byStage plain k stage
    rw [same] at named
    exact not_plain_perUser place.2 named

def visibleSamples (series : List MonitorSeries) (place : String × String) : List Float :=
  samplesOf (series.filter fun s => Visible s ∧ placeOf s = place)

theorem filter_place {series : List MonitorSeries} (distinct : (series.map placeOf).Nodup)
    {s : MonitorSeries} (mem : s ∈ series) :
    series.filter (fun t => placeOf t = placeOf s) = [s] := by
  induction series with
  | nil => cases mem
  | cons head rest ih =>
      rw [List.map_cons, List.nodup_cons] at distinct
      by_cases first : head = s
      · have others : rest.filter (fun t => placeOf t = placeOf s) = [] := by
          rw [List.filter_eq_nil_iff]
          intro t later same
          apply distinct.1
          rw [first, ← of_decide_eq_true same]
          exact List.mem_map_of_mem later
        simp only [List.filter_cons, first, decide_true, ↓reduceIte, others]
      · have later : s ∈ rest := (List.mem_cons.1 mem).resolve_left (Ne.symm first)
        have other : placeOf head ≠ placeOf s := by
          intro same
          apply distinct.1
          rw [same]
          exact List.mem_map_of_mem later
        simp only [List.filter_cons, other, decide_false, Bool.false_eq_true, ↓reduceIte,
          ih distinct.2 later]

/-- A series that alone gives rise to figures per user of its monitor in its stage has all samples
that these figures are about. -/
theorem visibleSamples_of_distinct {series : List MonitorSeries} {users : Table String UInt64}
    (distinct : ((series.filter (Derives users ·)).map placeOf).Nodup) {s : MonitorSeries}
    (mem : s ∈ series) (derives : Derives users s) :
    visibleSamples series (placeOf s) = s.samples := by
  have alike (t : MonitorSeries) :
      (Visible t ∧ placeOf t = placeOf s) ↔ (placeOf t = placeOf s ∧ Derives users t) := by
    constructor
    · intro ⟨visible, same⟩
      have stage : t.stage = s.stage := congrArg Prod.fst same
      exact ⟨same, visible, stage ▸ derives.2⟩
    · intro ⟨same, derives⟩
      exact ⟨derives.1, same⟩
  have only : series.filter (fun t => Visible t ∧ placeOf t = placeOf s) = [s] := by
    have derived : s ∈ series.filter (Derives users ·) :=
      List.mem_filter.2 ⟨mem, decide_eq_true derives⟩
    rw [← filter_place distinct derived, List.filter_filter]
    apply List.filter_congr
    intro t _
    simp only [alike, Bool.decide_and]
  rw [visibleSamples, only, samplesOf, List.flatMap_singleton]

/-- The rows of the stages can be told apart by their keys, and figures per user are those of all
visible samples of a monitor in a stage. -/
structure Keyed (series : List MonitorSeries) (users : Table String UInt64) : Prop where
  unique : ((ofSeries series users).stageRows.map keyOf).Nodup
  complete : ∀ f ∈ (ofSeries series users).perUser, ∃ s ∈ series, Derives users s ∧
    f = perUserFigures users (placeOf s) (visibleSamples series (placeOf s))

/-- The rows of the stages are keyed exactly when no two visible series are of the same monitor in
the same stage, stages without users aside. -/
theorem keyed_iff {series : List MonitorSeries} {users : Table String UInt64}
    (plain : ∀ s ∈ series, Plain s.name) :
    Keyed series users ↔ ((series.filter (Derives users ·)).map placeOf).Nodup := by
  constructor
  · intro keyed
    exact (nodup_stageRows_iff plain).1 keyed.unique
  · intro distinct
    refine ⟨(nodup_stageRows_iff plain).2 distinct, ?_⟩
    intro f mem
    rw [perUser_eq] at mem
    obtain ⟨s, derived, rfl⟩ := List.mem_map.1 mem
    have known : s ∈ series := List.mem_of_mem_filter derived
    have derives : Derives users s := of_decide_eq_true (List.mem_filter.1 derived).2
    refine ⟨s, known, derives, ?_⟩
    rw [visibleSamples_of_distinct distinct known derives]

def twoUsers : Table String UInt64 := Table.ofList [("execute", 2)]

/-- Series of one monitor. Those that repeat a stage are of processor use, hidden, or of a stage
without users. -/
def oneVisible : List MonitorSeries :=
  [⟨"setup", "process", .memory, [1048576.0], true⟩, ⟨"setup", "process", .memory, [1.0], true⟩,
    ⟨"execute", "process", .cpu, [10.0, 20.0], true⟩, ⟨"execute", "process", .cpu, [30.0], true⟩,
    ⟨"execute", "process", .memory, [3145728.0], false⟩,
    ⟨"execute", "process", .memory, [2097152.0, 4194304.0], true⟩]

theorem keyed_oneVisible : (∀ s ∈ oneVisible, Plain s.name) ∧ Keyed oneVisible twoUsers := by
  have plain : ∀ s ∈ oneVisible, Plain s.name := by decide
  exact ⟨plain, (keyed_iff plain).2 (by decide)⟩

/-- Memory of one stage, read in two series. -/
def readTwice : List MonitorSeries :=
  [⟨"execute", "process", .memory, [1048576.0, 3145728.0], true⟩,
    ⟨"execute", "process", .memory, [5242880.0], true⟩]

theorem not_keyed_readTwice : (∀ s ∈ readTwice, Plain s.name) ∧
    ¬ Keyed readTwice (Table.ofList [("execute", 1)]) := by
  refine ⟨by decide, fun keyed => ?_⟩
  have repeated : (ofSeries readTwice (Table.ofList [("execute", 1)])).stageRows.map keyOf =
      [(some "execute", "process", "memory"), (some "execute", "process_mb_per_vu", "memory"),
        (some "execute", "process_mb_per_vu", "memory")] := by rfl
  have unique := keyed.unique
  rw [repeated] at unique
  revert unique
  decide

end MonitorReport

end BenchReport
