import SlotBroker.Codec.Seal
import SlotBroker.Secret
import SlotBroker.Settings.Draft
import SlotBroker.Text.Blank

/-!
# Loading the settings

The settings of a file are checked in a fixed order, and then the master key is looked for: the one
of the environment is taken as it is, and only without it the key file is read and its text trimmed.
So there is always exactly one key, and it is not empty.

Results:
* `check_eq_ok_iff`: what the settings of a file have to satisfy.
* `resolveKey_of_environment`: with a key in the environment the key file does not matter.
-/

namespace SlotBroker

/-- Why a file is not read. -/
inductive FileFault where
  /-- There is none. What else the system may refuse is left out. -/
  | absent
  /-- The file does not hold UTF-8. -/
  | notText
  deriving Repr, DecidableEq

/-- The fault in words. -/
def FileFault.message : FileFault → String
  | absent => "No such file or directory (os error 2)"
  | notText => "stream did not contain valid UTF-8"

/-- The text of a file that holds some bytes, or that is not there. -/
def fileText : Option (List UInt8) → Except FileFault String
  | none => .error .absent
  | some bytes =>
    match Text.Utf8.ofBytes? bytes with
    | none => .error .notText
    | some s => .ok s

/-- Why the settings are not accepted. -/
inductive SettingsFault where
  | unreadable (cause : FileFault)
  /-- The file does not state settings. -/
  | malformed
  | noConnections
  | noSweepInterval
  | noStreams (service : ServiceId)
  | keyFileUnreadable (path : String) (cause : FileFault)
  | noMasterKey
  deriving Repr, DecidableEq

namespace SettingsFault

/-- How a fault of the settings is announced. -/
def announce (what : String) : String := "Configuration error: " ++ what

/-- The fault in words. Where in a malformed file the reader stopped is left out. -/
def message : SettingsFault → String
  | unreadable cause => cause.message
  | malformed => "the file does not state settings"
  | noConnections => announce "max_connections must be greater than 0"
  | noSweepInterval => announce "sweep_interval_secs must be greater than 0"
  | noStreams service =>
    announce ("service " ++ service ++ ": max_concurrent_streams must be greater than 0")
  | keyFileUnreadable path cause =>
    announce ("failed to read master_key_file " ++ path ++ ": " ++ cause.message)
  | noMasterKey => announce "no master key: set BROKER_MASTER_KEY or broker.master_key_file"

end SettingsFault

/-- Settings to work with. -/
structure Settings extends Draft where
  masterKey : Secret

namespace Settings

/-- The milliseconds from one sweep to the next. -/
def sweepMillis (s : Settings) : Nat := s.broker.sweepInterval.toNat * 1000

/-- The first fault of the settings that a file states. -/
def check (d : Draft) : Except SettingsFault Unit :=
  if d.server.maxConnections = 0 then .error .noConnections
  else if d.broker.sweepInterval = 0 then .error .noSweepInterval
  else
    match d.services.find? (·.streamCap = 0) with
    | some service => .error (.noStreams service.id)
    | none => .ok ()

/-- The master key: that of the environment, or else that of the key file. -/
def resolveKey (environment : Option String) (keyFile : Option String)
    (files : String → Except FileFault String) : Except SettingsFault Secret :=
  match environment.filter (· ≠ "") with
  | some key => .ok ⟨key⟩
  | none =>
    match keyFile with
    | none => .error .noMasterKey
    | some path =>
      match files path with
      | .error cause => .error (.keyFileUnreadable path cause)
      | .ok s => if Text.trim s = "" then .error .noMasterKey else .ok ⟨Text.trim s⟩

/-- Settings from the text of a file, a reader for it, the key of the environment and the files. -/
def load (read? : String → Option Draft) (file : Except FileFault String)
    (environment : Option String) (files : String → Except FileFault String) :
    Except SettingsFault Settings := do
  let text ← file.mapError .unreadable
  match read? text with
  | none => throw .malformed
  | some draft =>
    check draft
    let key ← resolveKey environment draft.broker.masterKeyFile files
    return { draft with masterKey := key }

/-- The path of the settings file: that of the command line, or else that of the environment. -/
def resolvePath (commandLine environment : Option String) : String :=
  (commandLine.orElse fun _ => environment).getD "pool-broker.toml"

theorem check_eq_ok_iff {d : Draft} :
    check d = .ok () ↔
      d.server.maxConnections ≠ 0 ∧ d.broker.sweepInterval ≠ 0 ∧
        ∀ s ∈ d.services, s.streamCap ≠ 0 := by
  unfold check
  split
  · simp_all
  · split
    · simp_all
    · split
      · next s h =>
        have hs : s.streamCap = 0 := by simpa using List.find?_some h
        simpa using fun _ _ => ⟨s, List.mem_of_find?_eq_some h, hs⟩
      · next h => simp_all

theorem resolveKey_of_environment {key : String} (hk : key ≠ "") (keyFile : Option String)
    (files : String → Except FileFault String) :
    resolveKey (some key) keyFile files = .ok ⟨key⟩ := by
  simp [resolveKey, Option.filter, hk]

end Settings

end SlotBroker
