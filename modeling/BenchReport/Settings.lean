import BenchReport.Files
import BenchReport.Json.Fields
import BenchReport.Text.Blank
import BenchReport.Toml.Document
set_option autoImplicit false

namespace BenchReport

/-- What becomes of the files of an earlier run. -/
inductive WritePolicy where
  /-- One pretty list in each file; earlier contents are replaced. -/
  | overwrite
  /-- One row on each line, behind earlier lines. -/
  | append
  deriving DecidableEq

namespace WritePolicy

def all : List WritePolicy := [.overwrite, .append]

def name : WritePolicy → String
  | .overwrite => "overwrite"
  | .append => "append"

def codec : Codec WritePolicy := Codec.word all name

end WritePolicy

structure FolderSettings where
  directory : String
  policy : WritePolicy
  deriving DecidableEq

namespace FolderSettings

def default : FolderSettings := ⟨"results", .overwrite⟩

def codec : Codec FolderSettings :=
  Codec.record "FolderSettings"
    (FolderSettings.mk
      <$> Fields.defaulted "directory" Codec.text directory default.directory
      <*> Fields.defaulted "policy" WritePolicy.codec policy default.policy)

end FolderSettings

/-- How rows are sent: pushed onto a list, or published on a channel. -/
inductive ChannelKind where
  | list
  | channel
  deriving DecidableEq

namespace ChannelKind

def all : List ChannelKind := [.list, .channel]

def name : ChannelKind → String
  | .list => "list"
  | .channel => "channel"

def codec : Codec ChannelKind := Codec.word all name

end ChannelKind

structure QueueSettings where
  url : String
  /-- What all keys start with. -/
  keyPrefix : String
  channel : ChannelKind
  deriving DecidableEq

namespace QueueSettings

def default : QueueSettings := ⟨"redis://127.0.0.1:6379/", "bench", .list⟩

def codec : Codec QueueSettings :=
  Codec.record "QueueSettings"
    (QueueSettings.mk
      <$> Fields.defaulted "url" Codec.text url default.url
      <*> Fields.defaulted "prefix" Codec.text keyPrefix default.keyPrefix
      <*> Fields.defaulted "channel_type" ChannelKind.codec channel default.channel)

end QueueSettings

structure ReporterSettings where
  /-- The tag of the backend. -/
  tag : String
  folder : FolderSettings
  queue : QueueSettings
  deriving DecidableEq

namespace ReporterSettings

def default : ReporterSettings := ⟨"json", .default, .default⟩

def codec : Codec ReporterSettings :=
  Codec.record "ReporterSettings"
    (ReporterSettings.mk
      <$> Fields.defaulted "type" Codec.text tag default.tag
      <*> Fields.defaulted "json" FolderSettings.codec folder default.folder
      <*> Fields.defaulted "redis" QueueSettings.codec queue default.queue)

end ReporterSettings

structure ArchiveSettings where
  path : String
  deriving DecidableEq

namespace ArchiveSettings

def default : ArchiveSettings := ⟨"session.json"⟩

def codec : Codec ArchiveSettings :=
  Codec.record "ArchiveSettings"
    (ArchiveSettings.mk <$> Fields.defaulted "path" Codec.text path default.path)

end ArchiveSettings

structure ConnectorSettings where
  /-- The tag of the source; all are read as stored sessions. -/
  tag : String
  archive : ArchiveSettings
  deriving DecidableEq

namespace ConnectorSettings

def default : ConnectorSettings := ⟨"json", .default⟩

def codec : Codec ConnectorSettings :=
  Codec.record "ConnectorSettings"
    (ConnectorSettings.mk
      <$> Fields.defaulted "type" Codec.text tag default.tag
      <*> Fields.defaulted "json" ArchiveSettings.codec archive default.archive)

end ConnectorSettings

structure Settings where
  /-- How many jobs may run at once; as many as the machine has cores when it is not said. -/
  workers : Option UInt64
  reporter : ReporterSettings
  connector : ConnectorSettings
  deriving DecidableEq

namespace Settings

def default : Settings := ⟨none, .default, .default⟩

def codec : Codec Settings :=
  Codec.record "Settings"
    (Settings.mk
      <$> Fields.optional "workers" Codec.count workers
      <*> Fields.defaulted "reporter" ReporterSettings.codec reporter .default
      <*> Fields.defaulted "connector" ConnectorSettings.codec connector .default)

/-- Refuses a pool without workers, and keys that nothing sets apart. -/
def validate (s : Settings) : Except Error Unit :=
  if s.workers = some 0 then .error .noWorkers
  else if Text.isBlankText s.reporter.queue.keyPrefix then .error .blankKeyPrefix
  else .ok ()

/-- The settings a document spells. -/
def ofText (s : String) : Except Error Settings := do
  match Toml.read s with
  | none => throw .settingsText
  | some j =>
    match codec.read .settings (Json.Draft.ofJson j) with
    | .error _ => throw .settingsText
    | .ok settings =>
      settings.validate
      return settings

/-- The settings in a file. -/
def ofFile (files : Files) (path : String) : Except Error Settings :=
  match files.readText path with
  | .error _ => .error (.settingsFile path)
  | .ok s => ofText s

/-- The settings in a file, if one is given. -/
def load (files : Files) : Option String → Except Error Settings
  | none => .ok default
  | some path => ofFile files path

end Settings

end BenchReport
