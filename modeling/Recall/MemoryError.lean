import Recall.Json.Failure

/-!
# Errors

Limits are never errors: every memory enforces them by eviction. What can fail is
a collaborator, a configuration, or the reading of a file.
-/

namespace Recall

/-- Why a file could not be read as text. -/
inductive FileFailure where
  | missing
  | directory
  | notText
  | other (message : String)
  deriving DecidableEq

def FileFailure.text : FileFailure → String
  | missing => "No such file or directory (os error 2)"
  | directory => "Is a directory (os error 21)"
  | notText => "stream did not contain valid UTF-8"
  | other message => message

/-- The report of a failure outside the library: a cause, and the contexts that were
put around it, the outermost last. -/
structure Report where
  cause : String
  contexts : List String
  deriving DecidableEq

/-- A report shows its outermost part. -/
def Report.text (r : Report) : String := r.contexts.getLast?.getD r.cause

/-- An error of a memory, a collaborator or a configuration. -/
inductive MemoryError where
  | io (failure : FileFailure)
  | serialization (failure : Json.Failure)
  | summarization (message : String)
  | embedding (message : String)
  | configuration (message : String)
  | validation (message : String)
  | external (report : Report)
  deriving DecidableEq

namespace MemoryError

def words : MemoryError → List String
  | io failure => ["IO error: ", failure.text]
  | serialization failure => ["Serialization error: ", failure.text]
  | summarization message => ["summarization failed: ", message]
  | embedding message => [message]
  | configuration message => ["Configuration error: ", message]
  | validation message => ["Validation error: ", message]
  | external report => ["External error: ", report.text]

def text (e : MemoryError) : String := String.join e.words

/-- Did a collaborator fail? -/
def isInjectionFailure : MemoryError → Bool
  | summarization _ | embedding _ | external _ => true
  | _ => false

/-- Did the caller hand in something unusable? -/
def isClientError : MemoryError → Bool
  | validation _ | configuration _ | serialization _ => true
  | _ => false

/-- Does the error carry another one as its source? -/
def hasSource : MemoryError → Bool
  | io _ | serialization _ | external _ => true
  | _ => false

end MemoryError

end Recall
