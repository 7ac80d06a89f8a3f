import GroupStore.Config
import GroupStore.Sqlite.Config

/-!
# What is wrong with a configuration

Either a file cannot be opened, or its text is no configuration document, or a value is not
acceptable; the last comes with its cause.
-/

namespace GroupStore

/-- The types of backend options. -/
inductive OptionKind where
  | string
  | integer
  | boolean
deriving DecidableEq

/-- The word for a type. -/
def OptionKind.label : OptionKind → String
  | string => "string"
  | integer => "integer"
  | boolean => "boolean"

/-- The type that a word names. -/
def OptionKind.ofLabel? (word : String) : Option OptionKind :=
  [string, integer, boolean].find? (·.label == word)

/-- Whether a value has a type. -/
def OptionKind.admits : OptionKind → Toml.Value → Bool
  | string, .text _ => true
  | integer, .integer _ => true
  | boolean, .boolean _ => true
  | _, _ => false

/-- Why a path in a configuration is refused. -/
inductive PathFault where
  | blank
  | tooLong
  | componentTooLong
deriving DecidableEq

/-- The wording of a refused path in a field. -/
def PathFault.message (field : String) : PathFault → String
  | blank => field ++ " must be non-empty"
  | tooLong => field ++ " exceeds max length"
  | componentTooLong => field ++ " path component too long"

/-- Why a value is not acceptable. -/
inductive ConfigFault where
  | tooManyPrefixColumns
  | settings (field : String) (cause : SettingsError)
  | repository (text : String)
  | unknownBackend (name : String) (known : List String)
  | blankBackend
  | takenBackend (name : String)
  | unsupportedOption (option backend : String)
  | optionType (option : String) (expected : OptionKind)
  | missingOption (option backend : String)
  | absentOption (option : String)
  | path (field : String) (fault : PathFault)
  | negativeTimeout
  | journalMode (word : String)
  | syncMode (word : String)
  | store (fault : Sqlite.PathFault)
  | auditPathMissing
  | auditPathUnused
  | fileTooLarge
  | notText
  | configPathTooLong
  | configComponentTooLong
  /-- A backend of one's own refuses its options. -/
  | factory (text : String)
deriving DecidableEq

/-- The greatest number of prefix columns. -/
def Config.maxPrefixColumns : Nat := 16

/-- The wording of a value that is not acceptable. -/
def ConfigFault.message : ConfigFault → String
  | tooManyPrefixColumns =>
    "repository.fixed_prefix exceeds " ++ toString Config.maxPrefixColumns ++ " columns"
  | settings field cause => field ++ ": " ++ cause.message
  | repository text => text
  | unknownBackend name known =>
    "unknown session backend " ++ name ++ " (known: " ++ ", ".intercalate known ++ ")"
  | blankBackend => "session backend name must be non-empty"
  | takenBackend name => "session backend " ++ name ++ " is already registered"
  | unsupportedOption option backend =>
    "session.options." ++ option ++ " is not supported by backend " ++ backend
  | optionType option expected => "session.options." ++ option ++ " must be a " ++ expected.label
  | missingOption option backend =>
    "session.options." ++ option ++ " is required by backend " ++ backend
  | absentOption option => "session.options." ++ option ++ " is required"
  | path field fault => fault.message field
  | negativeTimeout => "session.options.busy_timeout_ms must be non-negative"
  | journalMode word => "session.options.journal_mode must be wal or delete, got " ++ word
  | syncMode word => "session.options.sync_mode must be full or normal, got " ++ word
  | store fault => (Sqlite.OpenError.path fault).message
  | auditPathMissing => "audit.path is required for the file sink"
  | auditPathUnused => "audit.path is only valid for the file sink"
  | fileTooLarge => "config file exceeds size limit"
  | notText => "config file must be utf-8"
  | configPathTooLong => "config path exceeds max length"
  | configComponentTooLong => "config path component too long"
  | factory text => text

/-- What is wrong with a configuration. -/
inductive ConfigError where
  /-- A file cannot be opened. -/
  | unreadable
  /-- The text is no configuration document. -/
  | malformed
  | invalid (cause : ConfigFault)
deriving DecidableEq

/-- The wording of what is wrong. -/
def ConfigError.message : ConfigError → String
  | unreadable => "config io error: the file cannot be opened"
  | malformed => "config parse error: the text is no configuration document"
  | invalid cause => "invalid config: " ++ cause.message

end GroupStore
