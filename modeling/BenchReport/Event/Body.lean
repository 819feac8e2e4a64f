import BenchReport.Json.Fields
set_option autoImplicit false

namespace BenchReport

inductive Body where
  | text (s : String)
  | bytes (b : ByteArray)
  deriving BEq

namespace Body

instance : DecidableEq Body
  | .text s, .text t => if h : s = t then isTrue (h ▸ rfl) else isFalse fun e => h (text.inj e)
  | .text _, .bytes _ => isFalse nofun
  | .bytes _, .text _ => isFalse nofun
  | .bytes ⟨a⟩, .bytes ⟨b⟩ =>
    if h : a = b then isTrue (h ▸ rfl) else isFalse fun e => h (ByteArray.mk.inj (bytes.inj e))

/-- How bytes are spelled as text. -/
inductive Encoding where
  | utf8
  | base64
  deriving DecidableEq

def Encoding.name : Encoding → String
  | .utf8 => "utf8"
  | .base64 => "base64"

/-- The size in bytes. -/
def size : Body → Nat
  | .text s => s.utf8ByteSize
  | .bytes b => b.size

/-- Bytes as they are written: as UTF-8 if they are, else as base64. -/
def spell (b : ByteArray) : Encoding × String :=
  match String.fromUTF8? b with
  | some s => (.utf8, s)
  | none => (.base64, String.ofList (Text.Base64.encode b.data.toList))

/-- The bytes a spelling stands for. -/
def unspell : Encoding × String → Except Json.Fault ByteArray
  | (.utf8, s) => .ok s.toUTF8
  | (.base64, s) =>
    match Text.Base64.decode s.toUTF8.data.toList with
    | .ok bs => .ok ⟨bs.toArray⟩
    | .error flaw => .error (.base64 flaw)

def spellingFields : Fields (Encoding × String) (Encoding × String) :=
  Prod.mk
    <$> Fields.required "encoding" (Codec.word [.utf8, .base64] Encoding.name) (·.1)
    <*> Fields.required "value" Codec.text (·.2)

/-- Reads a body from a draft without flaws: a text, or a record of encoding and value. -/
def readSettled (d : Json.Draft) : Except Json.Fault Body :=
  match d with
  | .text s => .ok (.text s)
  | .record _ _ =>
    match (Codec.record "BodyRepr" spellingFields).read .value d with
    | .ok spelled => Body.bytes <$> unspell spelled
    | .error _ => .error (.noAlternative "BodyRepr")
  | _ => .error (.noAlternative "BodyRepr")

def codec : Codec Body where
  write
    | .text s => .text s
    | .bytes b => .record (spellingFields.write (spell b))
  read _ d := match d.reading with
    | some how => .error (.malformed how)
    | none => readSettled d

end Body

end BenchReport
