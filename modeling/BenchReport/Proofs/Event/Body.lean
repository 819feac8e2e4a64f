import BenchReport.Event.Body
import BenchReport.Proofs.Json.Codecs
import BenchReport.Proofs.Outcome
import BenchReport.Proofs.Text.Canonical
set_option autoImplicit false

namespace BenchReport.Body

open Json Fields

variable {n : Nat}

theorem toUTF8_of_fromUTF8? {b : ByteArray} {s : String} (spelled : String.fromUTF8? b = some s) :
    s.toUTF8 = b := by
  unfold String.fromUTF8? at spelled
  split at spelled
  · cases spelled
    rfl
  · cases spelled

/-- Bytes are what their spelling stands for, whether they are UTF-8 or not. -/
theorem unspell_spell (b : ByteArray) : unspell (spell b) = .ok b := by
  unfold spell
  cases spelled : String.fromUTF8? b with
  | some s =>
      rw [unspell, toUTF8_of_fromUTF8? spelled]
  | none =>
      simp only [unspell, Text.Base64.decode_encode]

theorem encoding_restores (e : Encoding) :
    (Codec.word [.utf8, .base64] Encoding.name).Restores n e :=
  Codec.word_restores (by cases e <;> decide) (by cases e <;> decide)

theorem spelling_restores (p : Encoding × String) :
    (Codec.record "BodyRepr" spellingFields).Restores (n + 1) p := by
  obtain ⟨encoding, value⟩ := p
  refine Codec.record_restores (Keeps.restores ?_) (by decide)
  refine .seq (.map _ ?_) ?_
  · exact required_keeps (encoding_restores encoding)
  · exact required_keeps (Codec.text_restores value)

theorem codec_restores (b : Body) : codec.Restores (n + 1) b := by
  cases b with
  | text s => exact ⟨.text s, fun _ => rfl⟩
  | bytes b =>
      have spelled := spelling_restores (spell b) (n := n)
      refine ⟨spelled.plain, fun m => ?_⟩
      have read : (Codec.record "BodyRepr" spellingFields).read .value
          (Draft.ofJson (.record (spellingFields.write (spell b)))) = .ok (spell b) :=
        spelled.reads .value
      simp only [codec, Draft.reading_ofJson]
      rw [Draft.ofJson] at read ⊢
      simp only [readSettled, read, unspell_spell]
      rfl

theorem codec_shown (b : Body) : codec.write b ≠ .null := by
  cases b <;> exact nofun

theorem sparse_keeps {σ : Type} {s : σ} {name : String} {get : σ → Option Body} :
    (sparse name codec get).Keeps (n + 1) s (get s) :=
  Fields.sparse_keeps fun b _ => ⟨b.codec_restores, b.codec_shown⟩

/-- A spelling stands for bytes: those of its text, or those that its text is the base64 of. -/
def Spells : Encoding × String → ByteArray → Prop
  | (.utf8, s), b => s.toUTF8 = b
  | (.base64, s), b => s = String.ofList (Text.Base64.encode b.data.toList)

/-- A spelling is accepted as the bytes that it stands for. There is one base64 of some bytes only,
so no other text is accepted as theirs. -/
theorem unspell_ok_iff {p : Encoding × String} {b : ByteArray} :
    unspell p = .ok b ↔ Spells p b := by
  obtain ⟨encoding, s⟩ := p
  cases encoding with
  | utf8 => exact ⟨Except.ok.inj, congrArg Except.ok⟩
  | base64 =>
      have text : s.toUTF8.data.toList =
          (String.ofList (Text.Base64.encode b.data.toList)).toUTF8.data.toList ↔
            s = String.ofList (Text.Base64.encode b.data.toList) := by
        rw [Array.toList_inj, ← ByteArray.ext_iff]
        exact String.toByteArray_inj
      rw [Spells, ← text, ← Text.Base64.decode_ok_iff, unspell]
      cases decoded : Text.Base64.decode s.toUTF8.data.toList with
      | error flaw => exact ⟨nofun, nofun⟩
      | ok bs =>
          rw [Except.ok.injEq, Except.ok.injEq]
          constructor
          · rintro rfl
            rfl
          · rintro rfl
            rfl

/-- Bytes are spelled as UTF-8 when they are, and only then. -/
theorem spell_utf8_iff (b : ByteArray) : (spell b).1 = .utf8 ↔ b.IsValidUTF8 := by
  unfold spell String.fromUTF8?
  by_cases valid : b.IsValidUTF8
  · simp only [valid, ↓reduceDIte]
  · simp only [valid, ↓reduceDIte, reduceCtorEq]

theorem read_text_iff {m : Medium} {d : Draft} {s : String} :
    codec.read m d = .ok (.text s) ↔ d = .text s := by
  simp only [codec]
  constructor
  · intro read
    split at read
    · cases read
    · rename_i whole
      unfold readSettled at read
      split at read
      · cases read
        rfl
      · split at read
        · obtain ⟨b, -, nothing⟩ := Outcome.map_ok read
          cases nothing
        · cases read
      · cases read
  · rintro rfl
    rfl

/-- Bytes are read from a record without flaws whose fields spell them. -/
theorem read_bytes_iff {m : Medium} {d : Draft} {b : ByteArray} :
    codec.read m d = .ok (.bytes b) ↔ d.reading = none ∧ (∃ members stop, d = .record members stop) ∧
      ∃ p, (Codec.record "BodyRepr" spellingFields).read .value d = .ok p ∧ Spells p b := by
  simp only [codec]
  constructor
  · intro read
    split at read
    · cases read
    · rename_i whole
      unfold readSettled at read
      split at read
      · cases read
      · split at read
        · rename_i p spelled
          obtain ⟨b', unspelled, same⟩ := Outcome.map_ok read
          cases same
          exact ⟨whole, ⟨_, _, rfl⟩, p, spelled, unspell_ok_iff.1 unspelled⟩
        · cases read
      · cases read
  · rintro ⟨whole, ⟨members, stop, rfl⟩, p, spelled, spells⟩
    simp only [whole, readSettled, spelled, unspell_ok_iff.2 spells]
    rfl

/-- The spelling of bytes stands for them. -/
theorem spell_spells (b : ByteArray) : Spells (spell b) b := unspell_ok_iff.1 (unspell_spell b)

/-- A record of a base64 text is a body exactly when the text is the base64 of its bytes. -/
theorem ofJson_base64_iff {value : String} {body : Body} :
    codec.ofJson (.record [("encoding", .text "base64"), ("value", .text value)]) = .ok body ↔
      ∃ b, body = .bytes b ∧ value = String.ofList (Text.Base64.encode b.data.toList) := by
  have spelled : (Codec.record "BodyRepr" spellingFields).read .value (Draft.ofJson
      (.record [("encoding", .text "base64"), ("value", .text value)])) = .ok (.base64, value) :=
    (spelling_restores (.base64, value) (n := 0)).reads .value
  have read (b : ByteArray) := read_bytes_iff (m := .value) (b := b)
    (d := Draft.ofJson (.record [("encoding", .text "base64"), ("value", .text value)]))
  rw [spelled] at read
  rw [Codec.ofJson]
  constructor
  · intro accepted
    cases body with
    | text s => cases read_text_iff.1 accepted
    | bytes b =>
        obtain ⟨-, -, p, same, spells⟩ := (read b).1 accepted
        cases same
        exact ⟨b, rfl, spells⟩
  · rintro ⟨b, rfl, encoded⟩
    exact (read b).2 ⟨Draft.reading_ofJson _, ⟨_, _, rfl⟩, _, rfl, encoded⟩

/-- Every body is read back as it was, from its text and from its value. Bytes are written as UTF-8
exactly when they are, else as base64. A text is read from a text alone, and bytes from a record
whose fields spell them; what such a record gives as base64 is the one canonical encoding of the
bytes. -/
theorem codec_lossless :
    (∀ b : Body, codec.ofText (codec.toText b) = .ok b ∧ codec.ofJson (codec.write b) = .ok b) ∧
    (∀ b : ByteArray, ∃ encoding value,
      codec.write (.bytes b) =
        .record [("encoding", .text (Encoding.name encoding)), ("value", .text value)] ∧
      (encoding = .utf8 ↔ b.IsValidUTF8) ∧ Spells (encoding, value) b) ∧
    (∀ m d s, codec.read m d = .ok (.text s) ↔ d = .text s) ∧
    (∀ m d b, codec.read m d = .ok (.bytes b) ↔
      d.reading = none ∧ (∃ members stop, d = .record members stop) ∧
        ∃ p, (Codec.record "BodyRepr" spellingFields).read .value d = .ok p ∧ Spells p b) ∧
    ∀ value body,
      codec.ofJson (.record [("encoding", .text "base64"), ("value", .text value)]) = .ok body ↔
        ∃ b, body = .bytes b ∧ value = String.ofList (Text.Base64.encode b.data.toList) := by
  refine ⟨?_, ?_, fun m d s => read_text_iff, fun m d b => read_bytes_iff,
    fun value body => ofJson_base64_iff⟩
  · intro b
    have restores := b.codec_restores (n := 0)
    exact ⟨restores.rereads (by decide), restores.reads .value⟩
  · intro b
    exact ⟨(spell b).1, (spell b).2, rfl, spell_utf8_iff b, spell_spells b⟩

end BenchReport.Body
