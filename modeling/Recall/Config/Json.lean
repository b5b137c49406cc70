import Recall.Config.Basic
import Recall.Json.Record

/-!
# Configurations in JSON

A configuration is written as an object: the name of the strategy under
`strategy`, then the limits. Reading takes the members in any order and passes
over unknown ones, or takes an array with the name first. Limits that are missing
keep their defaults.

The name of the strategy is judged where it stands. The limits can only be judged
once the strategy is known, and so after the closing bracket.
-/

namespace Recall.Config

open Json (Failure RecordField Found Mismatch Reading)

/-! ## The limits of one strategy -/

/-- A limit of `σ`: its name, how a value sets it, and its text. -/
structure Setting (σ : Type) where
  name : String
  set : σ → Found → Except Mismatch σ
  text : σ → List Char

namespace Setting

variable {σ : Type}

/-- A limit that is a number. -/
def size (name : String) (get : σ → Nat) (put : σ → Nat → σ) : Setting σ :=
  ⟨name, fun c found => (found.asSize).map (put c), fun c => Decimal.naturalText (get c)⟩

/-- A limit that is a truth value. -/
def flag (name : String) (get : σ → Bool) (put : σ → Bool → σ) : Setting σ :=
  ⟨name, fun c found => (found.asBool).map (put c), fun c => Json.boolText (get c)⟩

/-- The limit as a field of a record. -/
def toField (setting : Setting σ) : RecordField σ :=
  ⟨setting.name, false, fun c s => Json.readScalar (setting.set c) s⟩

/-- Sets limits from the members of an object, in the order of the text. The names
of the limits that have been set are remembered. -/
def setMembers (settings : List (Setting σ)) :
    List String → σ → List (String × Json) → Except Mismatch σ
  | _, c, [] => .ok c
  | seen, c, (key, value) :: members =>
    match settings.find? (·.name == key) with
    | none => setMembers settings seen c members
    | some setting =>
      if seen.contains key then .error (.duplicateField key)
      else do
        let c ← setting.set c value.head
        setMembers settings (key :: seen) c members

/-- Sets limits from the items of an array, in the order of the limits. -/
def setItems : List (Setting σ) → σ → List Json → Except Mismatch σ
  | setting :: settings, c, item :: items => do
    let c ← setting.set c item.head
    setItems settings c items
  | _, c, _ => .ok c

/-- The failure at items beyond the last limit. -/
def surplus (count length : Nat) : Mismatch :=
  .invalidLength length
    (String.ofList (Decimal.naturalText count) ++
      if count = 1 then " element in sequence" else " elements in sequence")

/-- The limits that members or items stand for. -/
def ofContents (settings : List (Setting σ)) (start : σ) :
    List (String × Json) ⊕ List Json → Except Mismatch σ
  | .inl members => setMembers settings [] start members
  | .inr items => do
    let c ← setItems settings start items
    if settings.length < items.length then .error (surplus settings.length items.length)
    else return c

/-- The names and texts of the limits. -/
def members (settings : List (Setting σ)) (c : σ) : List (String × List Char) :=
  settings.map fun setting => (setting.name, setting.text c)

def ofJson (title : String) (settings : List (Setting σ)) (start : σ) (text : String) :
    Except Failure σ :=
  Json.readAll (Json.readRecord title (settings.map toField) start) text

end Setting

namespace SlidingWindow

def settings : List (Setting SlidingWindow) :=
  [.size "window_size" (·.windowSize) fun c windowSize => { c with windowSize }]

def ofJson : String → Except Failure SlidingWindow :=
  Setting.ofJson "struct SlidingWindowConfig" settings default

end SlidingWindow

namespace Buffer

def settings : List (Setting Buffer) :=
  [.size "max_messages" (·.maxMessages) fun c maxMessages => { c with maxMessages },
    .size "max_tokens" (·.maxTokens) fun c maxTokens => { c with maxTokens },
    .flag "auto_summarize" (·.autoSummarize) fun c autoSummarize => { c with autoSummarize }]

def ofJson : String → Except Failure Buffer :=
  Setting.ofJson "struct BufferConfig" settings default

end Buffer

namespace Summarization

def settings : List (Setting Summarization) :=
  [.size "recent_window_size" (·.recentWindowSize)
      fun c recentWindowSize => { c with recentWindowSize },
    .size "summarize_after" (·.summarizeAfter) fun c summarizeAfter => { c with summarizeAfter }]

def ofJson : String → Except Failure Summarization :=
  Setting.ofJson "struct SummarizationConfig" settings default

end Summarization

namespace Retrieval

def settings : List (Setting Retrieval) :=
  [.size "top_k" (·.topK) fun c topK => { c with topK }]

def ofJson : String → Except Failure Retrieval :=
  Setting.ofJson "struct RetrievalConfig" settings default

end Retrieval

namespace Hierarchical

def settings : List (Setting Hierarchical) :=
  [.size "recent_limit" (·.recentLimit) fun c recentLimit => { c with recentLimit },
    .size "important_limit" (·.importantLimit) fun c importantLimit => { c with importantLimit }]

def ofJson : String → Except Failure Hierarchical :=
  Setting.ofJson "struct HierarchicalConfig" settings default

end Hierarchical

/-! ## Writing a configuration -/

def strategyKey : String := "strategy"

/-- The names and texts of the limits of a configuration. -/
def limitMembers : Config → List (String × List Char)
  | sequential => []
  | slidingWindow c => Setting.members SlidingWindow.settings c
  | buffer c => Setting.members Buffer.settings c
  | summarization c => Setting.members Summarization.settings c
  | retrieval c => Setting.members Retrieval.settings c
  | hierarchical c => Setting.members Hierarchical.settings c

/-- The names and texts of all members of a configuration. -/
def members (c : Config) : List (String × List Char) :=
  (strategyKey, Json.quote c.strategy.text) :: c.limitMembers

/-- The text of a configuration without blanks. -/
def compact (c : Config) : List Char := Json.objectText c.members

/-- The text of a configuration with a line for each member. -/
def pretty (c : Config) : List Char :=
  let lines := c.members.map fun (key, value) =>
    '\n' :: ' ' :: ' ' :: Json.quote key ++ ':' :: ' ' :: value
  '{' :: Json.joined lines ++ ['\n', '}']

/-! ## Reading a configuration -/

/-- The strategy that a value names. -/
def asStrategy : Found → Except Mismatch Strategy
  | .string name =>
    match Strategy.ofText? name with
    | some strategy => .ok strategy
    | none => .error (.unknownVariant name (Strategy.all.map Strategy.text))
  | found => .error (.invalidType found "variant identifier")

/-- The number of arrays and objects that may stand within a member. -/
def memberDepth : Nat := Json.depthLimit - 1

/-- Reads the members of a configuration up to the closing bracket: the strategy,
and all other members as they are. -/
def readMembers : Nat → Bool → Option Strategy → List Char →
    Except Failure ((Strategy × List (String × Json)) × List Char)
  | 0, _, _, _ => .error .ended
  | bound + 1, first, strategy?, s => do
    let (key, s) ← Json.nextKey Json.keyContents first s
    match key with
    | none =>
      match strategy? with
      | none => .error (.unfit (.missingField strategyKey))
      | some strategy => return ((strategy, []), s)
    | some key =>
      if key = strategyKey then
        if strategy?.isSome then .error (.unfit (.duplicateField strategyKey))
        else
          let s ← Json.readColon s
          let (strategy, s) ← Json.readScalar asStrategy s
          readMembers bound false (some strategy) s
      else
        let s ← Json.readColon s
        let (value, s) ← Json.readValue memberDepth s
        let ((strategy, members), s) ← readMembers bound false strategy? s
        return ((strategy, (key, value) :: members), s)

/-- The configuration of a strategy with these limits. -/
def ofContents (strategy : Strategy) (contents : List (String × Json) ⊕ List Json) :
    Except Mismatch Config :=
  match strategy with
  | .sequential => (Setting.ofContents [] () contents).map fun () => sequential
  | .slidingWindow =>
    (Setting.ofContents SlidingWindow.settings SlidingWindow.default contents).map slidingWindow
  | .buffer => (Setting.ofContents Buffer.settings Buffer.default contents).map buffer
  | .summarization =>
    (Setting.ofContents Summarization.settings Summarization.default contents).map summarization
  | .retrieval => (Setting.ofContents Retrieval.settings Retrieval.default contents).map retrieval
  | .hierarchical =>
    (Setting.ofContents Hierarchical.settings Hierarchical.default contents).map hierarchical

/-- Reads the strategy and the contents of a configuration. -/
def readContents (s : List Char) :
    Except Failure ((Strategy × (List (String × Json) ⊕ List Json)) × List Char) := do
  let (head, s) ← Json.readHead s
  match head with
  | .object =>
    let ((strategy, members), s) ← readMembers (s.length + 1) true none s
    let s ← Json.closeObject s
    return ((strategy, .inl members), s)
  | .array =>
    let (more, s) ← Json.nextItem true s
    if more then
      let (strategy, s) ← Json.readScalar asStrategy s
      let (items, s) ← Json.readItems (Json.readValue memberDepth) (s.length + 1) false s
      return ((strategy, .inr items), s)
    else .error (.unfit (.missingField strategyKey))
  | found => .error (.unfit (.invalidType found "internally tagged enum MemoryConfig"))

/-- Reads a configuration. -/
def read (s : List Char) : Except Failure (Config × List Char) := do
  let ((strategy, contents), s) ← readContents s
  match ofContents strategy contents with
  | .ok config => return (config, s)
  | .error mismatch => .error (.unfit mismatch)

/-- Reads a configuration from a whole text. It must be usable. -/
def ofJson (text : String) : Except MemoryError Config :=
  match Json.readAll read text with
  | .error failure => .error (.serialization failure)
  | .ok config => config.validate.map fun () => config

/-- Reads a configuration from a file, given by its bytes or the reason why there are
none. -/
def ofFile (contents : Except FileFailure ByteArray) : Except MemoryError Config :=
  match contents with
  | .error failure => .error (.io failure)
  | .ok bytes =>
    match String.fromUTF8? bytes with
    | none => .error (.io .notText)
    | some text => ofJson text

end Recall.Config
