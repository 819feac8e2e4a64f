import BenchReport.Proofs.Json.Schemas
import BenchReport.Proofs.Outcome
set_option autoImplicit false

namespace BenchReport

open Json

namespace Json

mutual

/-- The value with the keys of its records ascending; of repeated keys the last binding stays. -/
def ordered : Json → Json
  | .null => .null
  | .bool b => .bool b
  | .number n => .number n
  | .text s => .text s
  | .list items => .list (orderedItems items)
  | .record fields => .record (Table.ofList (orderedFields fields)).entries
termination_by structural j => j

def orderedItems : List Json → List Json
  | [] => []
  | j :: rest => ordered j :: orderedItems rest
termination_by structural l => l

def orderedFields : List (String × Json) → List (String × Json)
  | [] => []
  | (k, j) :: rest => (k, ordered j) :: orderedFields rest
termination_by structural l => l

end

namespace Draft

mutual

theorem toJson_ofJson : ∀ j : Json, (ofJson j).toJson = j.ordered
  | .null => rfl
  | .bool _ => rfl
  | .number _ => rfl
  | .text _ => rfl
  | .list items => by rw [ofJson, toJson, itemsToJson_ofJson items, ordered]
  | .record fields => by rw [ofJson, toJson, membersToJson_ofJson fields, ordered]

theorem itemsToJson_ofJson :
    ∀ items : List Json, itemsToJson (itemsOfJson items) = orderedItems items
  | [] => rfl
  | j :: items => by
      rw [itemsOfJson, itemsToJson, toJson_ofJson j, itemsToJson_ofJson items, orderedItems]

theorem membersToJson_ofJson :
    ∀ fields : List (String × Json), membersToJson (membersOfJson fields) = orderedFields fields
  | [] => rfl
  | (k, j) :: fields => by
      rw [membersOfJson, membersToJson, toJson_ofJson j, membersToJson_ofJson fields, orderedFields]
      rfl

end

end Draft

variable {α : Type}

def TellsText (j : Json) (s : String) : Prop := j = .text s

def TellsBool (j : Json) (b : Bool) : Prop := j = .bool b

def TellsWord32 (j : Json) (n : UInt32) : Prop := j = .number (.int n.toNat)

/-- A double, or an integer that stands for the double nearest to it. -/
inductive TellsFloat : Json → Float → Prop
  | float (x : Float) : TellsFloat (.number (.float x)) x
  | int (i : Int) : TellsFloat (.number (.int i)) (Codec.floatOfInt i)

/-- Any value tells itself, its keys put in order. -/
def TellsAny (j j' : Json) : Prop := j' = j.ordered

inductive TellsOption (tells : Json → α → Prop) : Json → Option α → Prop
  | null : TellsOption tells .null none
  | some {j : Json} {a : α} : j ≠ .null → tells j a → TellsOption tells j (some a)

inductive TellsList (tells : Json → α → Prop) : Json → List α → Prop
  | list {items : List Json} {as : List α} :
      List.Forall₂ tells items as → TellsList tells (.list items) as

/-- A record whose values are all texts; of repeated keys the last one stays. -/
inductive TellsTexts : Json → Table String String → Prop
  | record (l : List (String × String)) :
      TellsTexts (.record (l.map fun e => (e.1, .text e.2))) (Table.ofList l)

/-- A word, as a text or as the only key of a record whose value says nothing. -/
inductive TellsWord (spell : α → String) : Json → α → Prop
  | text (a : α) : TellsWord spell (.text (spell a)) a
  | member (a : α) : TellsWord spell (.record [(spell a, .null)]) a

/-- What the values under the name of a field come to: one value tells it, and without a value the
field is what it is when a record lacks it. A name must not be repeated. -/
def Gives (tells : Json → α → Prop) (absent : Option α) : List Json → α → Prop
  | [], a => absent = some a
  | [j], a => tells j a
  | _ :: _ :: _, _ => False

/-- The members of a record tell the value of a field that must be there. -/
def Required (ws : List (String × Json)) (name : String) (tells : Json → α → Prop) (a : α) : Prop :=
  Gives tells none (Fields.under name ws) a

/-- The members of a record tell the value of a field that is `b` when it is not there. -/
def Defaulted (ws : List (String × Json)) (name : String) (tells : Json → α → Prop) (b a : α) :
    Prop :=
  Gives tells (some b) (Fields.under name ws) a

end Json

namespace Codec

variable {α : Type}

/-- The codec takes from a value exactly what the value tells. -/
def Takes (c : Codec α) (tells : Json → α → Prop) : Prop :=
  ∀ j a, c.ofJson j = .ok a ↔ tells j a

variable {c : Codec α} {tells : Json → α → Prop}

theorem text_takes : text.Takes TellsText := by
  intro j a
  cases j with
  | text s => exact ⟨fun ok => congrArg Json.text (Except.ok.inj ok),
      fun told => congrArg Except.ok (Json.text.inj told)⟩
  | _ => exact ⟨nofun, nofun⟩

theorem bool_takes : bool.Takes TellsBool := by
  intro j a
  cases j with
  | bool b => exact ⟨fun ok => congrArg Json.bool (Except.ok.inj ok),
      fun told => congrArg Except.ok (Json.bool.inj told)⟩
  | _ => exact ⟨nofun, nofun⟩

theorem word32_takes : word32.Takes TellsWord32 := by
  intro j a
  have bounded : a.toNat < UInt32.size := a.toNat_lt
  have size : (UInt32.size : Int) = 4294967296 := rfl
  cases j with
  | number n =>
      cases n with
      | float x => exact ⟨nofun, nofun⟩
      | int i =>
          have read : word32.ofJson (.number (.int i)) =
              if 0 ≤ i ∧ i ≤ UInt32.size - 1 then .ok (UInt32.ofNat i.toNat)
              else .error (.unfit (.number (.int i)) "u32") := by
            show (fun i : Int => UInt32.ofNat i.toNat) <$> (if _ then _ else _) = _
            split <;> rfl
          have told : TellsWord32 (.number (.int i)) a ↔ i = a.toNat := by
            simp only [TellsWord32, Json.number.injEq, Number.int.injEq]
          rw [read, told]
          by_cases fits : 0 ≤ i ∧ i ≤ UInt32.size - 1
          · rw [if_pos fits, Except.ok.injEq]
            constructor
            · intro same
              rw [← same, UInt32.toNat_ofNat_of_lt' (by omega)]
              omega
            · intro same
              rw [same, Int.toNat_natCast]
              exact UInt32.ofNat_toNat
          · rw [if_neg fits]
            exact ⟨nofun, fun same => absurd (by omega) fits⟩
  | _ => exact ⟨nofun, nofun⟩

theorem float_takes : float.Takes TellsFloat := by
  intro j a
  cases j with
  | number n =>
      cases n with
      | float x =>
          constructor
          · intro ok
            cases ok
            exact .float _
          · intro told
            cases told
            rfl
      | int i =>
          constructor
          · intro ok
            cases ok
            exact .int i
          · intro told
            cases told
            rfl
  | _ => exact ⟨nofun, nofun⟩

theorem json_takes : json.Takes TellsAny := by
  intro j a
  have read : json.ofJson j = .ok j.ordered := by
    simp only [ofJson, json, Draft.reading_ofJson, Draft.toJson_ofJson]
  rw [read, Except.ok.injEq]
  exact eq_comm

theorem option_takes (takes : c.Takes tells) : c.option.Takes (TellsOption tells) := by
  intro j o
  by_cases nothing : j = .null
  · subst nothing
    constructor
    · intro ok
      cases ok
      exact .null
    · intro told
      cases told with
      | null => rfl
      | some other => exact absurd rfl other
  · have read : c.option.ofJson j = some <$> c.ofJson j := by
      cases j with
      | null => exact absurd rfl nothing
      | _ => rfl
    rw [read]
    constructor
    · intro ok
      obtain ⟨a, inner, rfl⟩ := Outcome.map_ok ok
      exact .some nothing ((takes j a).1 inner)
    · intro told
      cases told with
      | null => exact absurd rfl nothing
      | some _ inner =>
          rw [(takes j _).2 inner]
          rfl

theorem readItems_ok_iff (takes : c.Takes tells) (items : List Json) (as : List α) :
    readItems c .value none (Draft.itemsOfJson items) = .ok as ↔
      List.Forall₂ tells items as := by
  induction items generalizing as with
  | nil =>
      constructor
      · intro ok
        cases ok
        exact .nil
      · intro told
        cases told
        rfl
  | cons j rest ih =>
      rw [Draft.itemsOfJson, readItems]
      constructor
      · intro ok
        obtain ⟨a, first, ok⟩ := Outcome.bind_ok ok
        obtain ⟨as', later, ok⟩ := Outcome.bind_ok ok
        cases ok
        exact .cons ((takes j a).1 first) ((ih as').1 later)
      · intro told
        obtain ⟨a, as', first, later, rfl⟩ := List.forall₂_cons_left_iff.1 told
        have read : c.read .value (Draft.ofJson j) = .ok a := (takes j a).2 first
        rw [read, (ih as').2 later]
        rfl

theorem list_takes (takes : c.Takes tells) : c.list.Takes (TellsList tells) := by
  intro j as
  cases j with
  | list items =>
      have read : c.list.ofJson (.list items) =
          readItems c .value none (Draft.itemsOfJson items) := rfl
      rw [read, readItems_ok_iff takes]
      exact ⟨.list, fun told => by cases told; assumption⟩
  | _ => exact ⟨nofun, nofun⟩

theorem readMembers_ok_iff (ws : List (String × Json)) (l : List (String × String)) :
    readMembers .ok text .value none (Draft.membersOfJson ws) = .ok l ↔
      ws = l.map fun e => (e.1, .text e.2) := by
  induction ws generalizing l with
  | nil =>
      rw [eq_comm (a := []), List.map_eq_nil_iff]
      exact ⟨fun ok => (Except.ok.inj ok).symm, fun none => by rw [none]; rfl⟩
  | cons e rest ih =>
      obtain ⟨k, j⟩ := e
      rw [Draft.membersOfJson, readMembers]
      constructor
      · intro ok
        obtain ⟨k', same, ok⟩ := Outcome.bind_ok ok
        obtain ⟨s, first, ok⟩ := Outcome.bind_ok ok
        obtain ⟨l', later, ok⟩ := Outcome.bind_ok ok
        cases same
        cases ok
        rw [List.map_cons, ← (ih l').1 later, (text_takes j s).1 first]
      · intro told
        cases l with
        | nil => cases told
        | cons e' l' =>
            rw [List.map_cons, List.cons.injEq, Prod.mk.injEq] at told
            obtain ⟨⟨rfl, rfl⟩, later⟩ := told
            rw [(ih l').2 later]
            rfl

theorem texts_takes : text.texts.Takes TellsTexts := by
  intro j t
  cases j with
  | record ws =>
      have read : text.texts.ofJson (.record ws) =
          Table.ofList <$> readMembers .ok text .value none (Draft.membersOfJson ws) := rfl
      rw [read]
      constructor
      · intro ok
        obtain ⟨l, members, rfl⟩ := Outcome.map_ok ok
        rw [(readMembers_ok_iff ws l).1 members]
        exact .record l
      · intro told
        cases told with
        | record l =>
            rw [(readMembers_ok_iff _ l).2 rfl]
            rfl
  | _ => exact ⟨nofun, nofun⟩

theorem findWord_ok {words : List α} {spell : α → String} {s : String} {a : α}
    (found : findWord words spell s = .ok a) : spell a = s := by
  unfold findWord at found
  cases first : words.find? (spell · == s) with
  | none =>
      rw [first] at found
      cases found
  | some b =>
      rw [first] at found
      cases found
      simpa using List.find?_some first

theorem word_takes {words : List α} {spell : α → String} (complete : ∀ a, a ∈ words)
    (distinct : Function.Injective spell) : (word words spell).Takes (TellsWord spell) := by
  have found (a : α) : findWord words spell (spell a) = .ok a :=
    findWord_spell (complete a) fun _ _ same => distinct same
  intro j a
  constructor
  · intro ok
    cases j with
    | text s =>
        rw [← findWord_ok ok]
        exact .text a
    | record ws =>
        match ws with
        | [] => cases ok
        | [(k, j)] =>
            obtain ⟨b, first, ok⟩ := Outcome.bind_ok ok
            cases j with
            | null =>
                cases ok
                rw [← findWord_ok first]
                exact .member a
            | _ => cases ok
        | _ :: _ :: _ => cases ok
    | _ => cases ok
  · intro told
    cases told with
    | text => exact found a
    | member =>
        show (findWord words spell (spell a) >>= _) = _
        rw [found a]
        rfl

end Codec

namespace Fields

open Codec (unplaced)

variable {σ α β : Type}

/-- From the members of a record the fields take exactly what the members tell. -/
def Takes (f : Fields σ α) (tells : List (String × Json) → α → Prop) : Prop :=
  ∀ known ms ws, ms.map unplaced = Draft.membersOfJson ws →
    ∀ a, f.ofMembers .value known ms = .ok a ↔ tells ws a

theorem Takes.of_iff {f : Fields σ α} {tells tells' : List (String × Json) → α → Prop}
    (takes : f.Takes tells) (same : ∀ ws a, tells ws a ↔ tells' ws a) : f.Takes tells' :=
  fun known ms ws members a => (takes known ms ws members a).trans (same ws a)

theorem pure_takes (a : α) : (Fields.pure a : Fields σ α).Takes fun _ b => a = b :=
  fun _ _ _ _ _ => ⟨Except.ok.inj, congrArg Except.ok⟩

theorem Takes.seq {f : Fields σ (α → β)} {x : Fields σ α}
    {tells_f : List (String × Json) → (α → β) → Prop} {tells_x : List (String × Json) → α → Prop}
    (left : f.Takes tells_f) (right : x.Takes tells_x) :
    (f <*> x).Takes fun ws b => ∃ g a, tells_f ws g ∧ tells_x ws a ∧ g a = b := by
  intro known ms ws same b
  have both : (f <*> x).ofMembers .value known ms =
      Trouble.both (f.ofMembers .value known ms) (x.ofMembers .value known ms) := rfl
  rw [both]
  constructor
  · intro ok
    cases first : f.ofMembers .value known ms with
    | error t =>
        rw [first] at ok
        cases second : x.ofMembers .value known ms <;> rw [second] at ok <;> cases ok
    | ok g =>
        cases second : x.ofMembers .value known ms with
        | error t =>
            rw [first, second] at ok
            cases ok
        | ok a =>
            rw [first, second] at ok
            exact ⟨g, a, (left known ms ws same g).1 first, (right known ms ws same a).1 second,
              Except.ok.inj ok⟩
  · rintro ⟨g, a, told, told', rfl⟩
    rw [(left known ms ws same g).2 told, (right known ms ws same a).2 told']
    rfl

theorem Takes.map {x : Fields σ α} {tells : List (String × Json) → α → Prop} (g : α → β)
    (takes : x.Takes tells) : (g <$> x).Takes fun ws b => ∃ a, tells ws a ∧ g a = b := by
  intro known ms ws same b
  refine ((pure_takes g).seq takes known ms ws same b).trans ?_
  constructor
  · rintro ⟨_, a, rfl, told, made⟩
    exact ⟨a, told, made⟩
  · rintro ⟨a, told, made⟩
    exact ⟨g, a, rfl, told, made⟩

/-- A field takes what the values under its name come to. -/
theorem field_takes {name : String} {c : Codec β} {get : σ → β} {p : Policy β}
    {tells : Json → β → Prop} (takes : c.Takes tells) :
    (field name c get p).Takes fun ws b => Gives tells p.absent (under name ws) b := by
  intro known ms ws same b
  have own := Codec.filter_of_unplaced same (· == name)
  show _ ↔ Gives tells p.absent ((ws.filter fun e => e.1 == name).map (·.2)) b
  -- Only whether there are no, one or several members of the name matters from here on.
  generalize ws.filter (fun e => e.1 == name) = stands at own
  simp only [field]
  generalize ms.filter (fun m => m.name == name) = members at own
  cases stands with
  | nil =>
      obtain rfl : members = [] := List.map_eq_nil_iff.1 own
      show _ ↔ p.absent = some b
      cases p.absent with
      | none => constructor <;> intro ok <;> cases ok
      | some b' => simp only [Except.ok.injEq, Option.some.injEq]
  | cons e others =>
      obtain ⟨m, ms', rfl, own_value, own_others⟩ := List.map_eq_cons_iff.1 own
      have value : m.value = Draft.ofJson e.2 := congrArg Prod.snd own_value
      cases others with
      | nil =>
          obtain rfl : ms' = [] := List.map_eq_nil_iff.1 own_others
          have read : c.read .value m.value = c.ofJson e.2 := by rw [value]; rfl
          refine Iff.trans ?_ (takes e.2 b)
          simp only [read]
          cases c.ofJson e.2 with
          | error fault => constructor <;> intro ok <;> cases ok
          | ok b' => exact ⟨congrArg Except.ok ∘ Except.ok.inj, congrArg Except.ok ∘ Except.ok.inj⟩
      | cons e' others' =>
          obtain ⟨m', ms'', rfl, -, -⟩ := List.map_eq_cons_iff.1 own_others
          refine ⟨fun ok => ?_, False.elim⟩
          cases read : c.read .value m.value <;> simp only [read] at ok <;> cases ok

section Kinds

variable {name : String} {c : Codec β} {tells : Json → β → Prop}

theorem required_takes {get : σ → β} (takes : c.Takes tells) :
    (required name c get).Takes fun ws b => Required ws name tells b := field_takes takes

theorem defaulted_takes {get : σ → β} {b : β} (takes : c.Takes tells) :
    (defaulted name c get b).Takes fun ws b' => Defaulted ws name tells b b' := field_takes takes

theorem optional_takes {get : σ → Option β} (takes : c.Takes tells) :
    (optional name c get).Takes fun ws o => Defaulted ws name (TellsOption tells) none o :=
  field_takes (Codec.option_takes takes)

end Kinds

end Fields

/-- From a record a codec takes what its fields take from the members. -/
theorem Codec.record_takes {α : Type} {name : String} {fs : Fields α α}
    {tells : List (String × Json) → α → Prop} (takes : fs.Takes tells)
    (ws : List (String × Json)) (a : α) :
    (record name fs).ofJson (.record ws) = .ok a ↔ tells ws a := by
  refine Iff.trans ?_ (takes fs.names _ ws (unplaced_placed 0 ws) a)
  have read : (record name fs).ofJson (.record ws) = settle (Trouble.both
      (Trouble.both (.ok fun _ a => a) (textTrouble fs.named.contains fs.gathers none 0
        (Draft.membersOfJson ws)))
      (fs.ofMembers .value fs.names (placed 0 (Draft.membersOfJson ws)))) := rfl
  rw [read, textTrouble_membersOfJson]
  cases fs.ofMembers .value fs.names (placed 0 (Draft.membersOfJson ws)) with
  | error t => exact ⟨nofun, nofun⟩
  | ok b => exact ⟨congrArg Except.ok ∘ Except.ok.inj, congrArg Except.ok ∘ Except.ok.inj⟩

end BenchReport
