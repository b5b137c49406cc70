import Recall.Session
import Mathlib.Data.List.Induction

/-!
# Courses of a memory

A *course* is a memory in use, together with the two things that every law of
retention speaks about and that no memory stores: the messages that came since
the memory last forgot everything, and the journal as it stood at that moment.
Courses are folds over requests, so a law about all of them is an induction over
the requests, with one obligation for each operation that changes the memory
(`exists_run`). A request that adds several messages is the same as requests that
add one each, up to the first that fails (`record_addAll`).

What became of a message is read off its *addition*, which records the memory and
the journal that the message found: its reply is the reply of the memory, and the
answers of collaborators are those to the question with that number. Additions are
recorded beside the course (`additions`); a law may speak about both
(`exists_recorded_run`).

The calls that a summarizer answered are read off the journal: the number of a
call is its place there, so batch and reply are both known (`Summarizer.calls`).
-/

namespace Recall

/-! ## A journal only grows -/

/-- The journal `k` continues the journal `j`. -/
structure Journal.Begins (j k : Journal) : Prop where
  readings : j.readings ≤ k.readings
  issued : j.issued ≤ k.issued
  batches : j.batches <+: k.batches
  texts : j.texts <+: k.texts
  scored : j.scored <+: k.scored
  events : j.events <+: k.events

namespace Journal

variable {j k l : Journal}

theorem Begins.refl (j : Journal) : j.Begins j :=
  ⟨Nat.le_refl _, Nat.le_refl _, List.prefix_rfl, List.prefix_rfl, List.prefix_rfl, List.prefix_rfl⟩

theorem Begins.trans (h : j.Begins k) (h' : k.Begins l) : j.Begins l where
  readings := Nat.le_trans h.readings h'.readings
  issued := Nat.le_trans h.issued h'.issued
  batches := h.batches.trans h'.batches
  texts := h.texts.trans h'.texts
  scored := h.scored.trans h'.scored
  events := h.events.trans h'.events

theorem Begins.report (h : j.Begins k) (e : Event) : j.Begins (k.report e) :=
  h.trans { Begins.refl k with events := List.prefix_append _ _ }

theorem Begins.now (h : j.Begins k) (supply : Supply) : j.Begins (k.now supply).2 :=
  h.trans { Begins.refl k with readings := Nat.le_succ _ }

theorem Begins.compose (h : j.Begins k) (supply : Supply) (role : Role) (content : String) :
    j.Begins (k.compose supply role content).2 :=
  h.trans { Begins.refl k with readings := Nat.le_succ _, issued := Nat.le_succ _ }

theorem Begins.summarizer (h : j.Begins k) (s : Summarizer) (batch : List Message) :
    j.Begins (s.ask batch k).2 :=
  h.trans { Begins.refl k with batches := List.prefix_append _ _ }

theorem Begins.embedder (h : j.Begins k) (e : Embedder) (text : String) :
    j.Begins (e.ask text k).2 :=
  h.trans { Begins.refl k with texts := List.prefix_append _ _ }

theorem Begins.scorer (h : j.Begins k) (s : Scorer) (supply : Supply) (m : Message) :
    j.Begins (s.ask supply m k).2 :=
  h.trans { Begins.refl k with
    readings := Nat.le_succ _, scored := List.prefix_append _ _ }

end Journal

namespace Memory

open Journal (Begins)

theorem Buffer.begins_compact (supply : Supply) (count : Nat) (pressure : Pressure)
    (b : Buffer) (j : Journal) : j.Begins (b.compact supply count pressure j).2 := by
  unfold Buffer.compact
  by_cases hcount : count = 0
  · simpa [hcount] using Begins.refl j
  · by_cases hauto : b.limits.autoSummarize
    · simp only [hcount, hauto, if_false, Bool.not_true, Bool.false_eq_true]
      have hask := (Begins.refl j).summarizer b.summarizer (b.messages.take count)
      split
      · exact (hask.compose supply _ _).report _
      · exact hask.report _
    · simpa [hcount, hauto] using (Begins.refl j).report _

theorem Summarization.begins_compact (s : Summarization) (j : Journal) :
    j.Begins (s.compact j).2 := by
  unfold Summarization.compact
  by_cases hsurplus : s.surplus = 0
  · simpa [hsurplus] using Begins.refl j
  · simp only [hsurplus, if_false]
    have hask := (Begins.refl j).summarizer s.summarizer (s.recent.take s.surplus)
    split
    · exact hask.report _
    · exact hask

theorem Hierarchical.begins_judge (supply : Supply) (h : Hierarchical) (m : Message)
    (j : Journal) : j.Begins (h.judge supply m j).2 := by
  unfold Hierarchical.judge
  split
  · exact Begins.refl j
  · exact (Begins.refl j).scorer h.scorer supply m

theorem Hierarchical.begins_scores (supply : Supply) (scorer : Scorer) (messages : List Message)
    (j : Journal) : j.Begins (Hierarchical.scores supply scorer messages j).2 := by
  induction messages generalizing j with
  | nil => exact Begins.refl j
  | cons m messages ih => exact ((Begins.refl j).scorer scorer supply m).trans (ih _)

theorem Hierarchical.begins_enter (supply : Supply) (m : Message) (h : Hierarchical)
    (j : Journal) : j.Begins (h.enter supply m j).2 := by
  unfold Hierarchical.enter
  dsimp only
  have hjudge := h.begins_judge supply m j
  split
  · exact hjudge.report _
  · exact hjudge

theorem Hierarchical.begins_boundRecent (h : Hierarchical) (j : Journal) :
    j.Begins (h.boundRecent j).2 := by
  unfold Hierarchical.boundRecent
  split
  · exact Begins.refl j
  · split
    · exact Begins.refl j
    · split <;> exact (Begins.refl j).report _

theorem Hierarchical.begins_boundImportant (supply : Supply) (h : Hierarchical) (j : Journal) :
    j.Begins (h.boundImportant supply j).2 := by
  unfold Hierarchical.boundImportant
  have hscores := Hierarchical.begins_scores supply h.scorer h.important j
  split
  · exact Begins.refl j
  · dsimp only
    split
    · exact hscores
    · exact hscores.report _

theorem begins_add (supply : Supply) (m : Message) (memory : Memory) (j : Journal) :
    j.Begins (memory.add supply m j).2 := by
  cases memory with
  | sequential s => exact (Begins.refl j).report _
  | slidingWindow w =>
      show j.Begins (w.add m j).2
      unfold SlidingWindow.add
      dsimp only
      split
      · exact (Begins.refl j).report _
      · exact Begins.refl j
  | buffer b => exact (Buffer.begins_compact ..).trans (Buffer.begins_compact ..)
  | summarization s =>
      show j.Begins (s.add m j).2
      unfold Summarization.add
      dsimp only
      split
      · exact Summarization.begins_compact _ j
      · exact Begins.refl j
  | retrieval r =>
      show j.Begins (r.add m j).2
      unfold Retrieval.add
      dsimp only
      have hask := (Begins.refl j).embedder r.embedder m.content
      split
      · exact hask
      · exact hask.report _
  | hierarchical h =>
      exact (h.begins_enter supply m j).trans
        ((Hierarchical.begins_boundRecent ..).trans (Hierarchical.begins_boundImportant ..))

theorem begins_addAll (supply : Supply) (messages : List Message) (memory : Memory)
    (j : Journal) : j.Begins (addAll supply messages memory j).2 := by
  induction messages generalizing memory j with
  | nil => exact Begins.refl j
  | cons m messages ih =>
      unfold addAll
      dsimp only
      split
      · exact begins_add supply m memory j
      · exact (begins_add supply m memory j).trans (ih _ _)

theorem begins_context (supply : Supply) (query : String) (memory : Memory) (j : Journal) :
    j.Begins (memory.context supply query j).2 := by
  cases memory with
  | summarization s =>
      show j.Begins (s.summaryTime supply j).2
      unfold Summarization.summaryTime
      split
      · exact (Begins.refl j).now supply
      · exact Begins.refl j
  | retrieval r =>
      show j.Begins (r.context query j).2
      unfold Retrieval.context
      dsimp only
      have hask := (Begins.refl j).embedder r.embedder query
      split
      · exact Begins.refl j
      · split
        · exact hask
        · exact hask.report _
  | sequential _ | slidingWindow _ | buffer _ | hierarchical _ => exact Begins.refl j

theorem begins_clear (memory : Memory) (j : Journal) : j.Begins (memory.clear j).2 := by
  cases memory <;> exact (Begins.refl j).report _

/-- **Answering a request continues the journal.** Nothing that was asked or
reported is ever taken back. -/
theorem begins_answer (supply : Supply) (r : Request) (memory : Memory) (j : Journal) :
    j.Begins (memory.answer supply r j).2 := by
  cases r with
  | add m => exact begins_add supply m memory j
  | addAll ms => exact begins_addAll supply ms memory j
  | clear => exact begins_clear memory j
  | context query => exact begins_context supply query memory j
  | resize size =>
      cases memory with
      | slidingWindow w => exact (Begins.refl j).report _
      | _ => exact Begins.refl j
  | load ms =>
      cases memory with
      | buffer b => exact (Begins.refl j).report _
      | _ => exact Begins.refl j
  | occupancy | windowSize | messages | limits | summaries | setTopK k | topK | archived =>
      cases memory <;> exact Begins.refl j

end Memory

/-! ## The calls of a summarizer -/

/-- A call of a summarizer: the batch it was given and its reply. -/
structure Call where
  batch : List Message
  reply : Except MemoryError String

namespace Call

/-- The messages that a call replaced by a text; none if it failed. -/
def condensed (call : Call) : List Message :=
  match call.reply with
  | .ok _ => call.batch
  | .error _ => []

def text? (call : Call) : Option String := call.reply.toOption

theorem text?_eq_some_iff {call : Call} {text : String} :
    call.text? = some text ↔ call.reply = .ok text := by
  obtain ⟨batch, reply⟩ := call
  cases reply <;> simp [text?, Except.toOption]

end Call

/-- The calls of a summarizer that a journal records, in order. -/
def Summarizer.calls (s : Summarizer) (j : Journal) : List Call :=
  j.batches.mapIdx fun k batch => ⟨batch, s.summarize k batch⟩

theorem Summarizer.length_calls (s : Summarizer) (j : Journal) :
    (s.calls j).length = j.batches.length := by
  simp [Summarizer.calls]

theorem Summarizer.calls_ask (s : Summarizer) (batch : List Message) (j : Journal) :
    s.calls (s.ask batch j).2 = s.calls j ++ [⟨batch, (s.ask batch j).1⟩] := by
  simp [Summarizer.calls, Summarizer.ask, List.mapIdx_append]

/-! ## Courses -/

structure Course (σ : Type) where
  memory : σ
  journal : Journal
  /-- The messages that came since the memory last forgot, those first that it was
  told to hold instead. -/
  history : List Message
  /-- The journal when the memory last forgot. -/
  origin : Journal

namespace Course

variable {σ : Type}

/-- Messages come, with the memory and the journal after it. -/
def enters (messages : List Message) (after : σ × Journal) (c : Course σ) : Course σ where
  memory := after.1
  journal := after.2
  history := c.history ++ messages
  origin := c.origin

/-- The memory forgets and holds some messages instead. -/
def restarts (messages : List Message) (after : σ × Journal) : Course σ where
  memory := after.1
  journal := after.2
  history := messages
  origin := after.2

def stays (after : σ × Journal) (c : Course σ) : Course σ where
  memory := after.1
  journal := after.2
  history := c.history
  origin := c.origin

/-- The course of a memory of one kind as a course of memories. -/
def lift (f : σ → Memory) (c : Course σ) : Course Memory where
  memory := f c.memory
  journal := c.journal
  history := c.history
  origin := c.origin

/-- The calls of a summarizer since the memory last forgot. -/
def calls (s : Summarizer) (c : Course σ) : List Call :=
  (s.calls c.journal).drop c.origin.batches.length

/-- The events since the memory last forgot. -/
def reports (c : Course σ) : List Event :=
  c.journal.events.drop c.origin.events.length

end Course

/-- The messages of `Memory.addAll` that are put to the memory: all up to the first
that fails, that one included. -/
def Memory.offered (supply : Supply) : List Message → Memory → Journal → List Message
  | [], _, _ => []
  | m :: messages, memory, j =>
    let next := memory.add supply m j
    match next.1.1 with
    | .error _ => [m]
    | .ok () => m :: offered supply messages next.1.2 next.2

/-- A message that was put to a memory, with the memory and the journal that it found. -/
structure Addition where
  message : Message
  memory : Memory
  journal : Journal

namespace Addition

def reply (supply : Supply) (a : Addition) : Except MemoryError Unit :=
  (a.memory.add supply a.message a.journal).1.1

def accepted (supply : Supply) (a : Addition) : Bool := (a.reply supply).isOk

variable {supply : Supply} {a : Addition}

theorem accepted_of_ok (h : a.reply supply = .ok ()) : a.accepted supply = true := by
  rw [accepted, h]
  rfl

theorem accepted_of_error {e : MemoryError} (h : a.reply supply = .error e) :
    a.accepted supply = false := by
  rw [accepted, h]
  rfl

end Addition

/-- The additions that `Memory.addAll` makes: those of the messages that it offers. -/
def Memory.additions (supply : Supply) : List Message → Memory → Journal → List Addition
  | [], _, _ => []
  | m :: messages, memory, j =>
    let next := memory.add supply m j
    match next.1.1 with
    | .error _ => [⟨m, memory, j⟩]
    | .ok () => ⟨m, memory, j⟩ :: additions supply messages next.1.2 next.2

namespace Course

def opened (config : Config) (helpers : Collaborators) (j : Journal) : Course Memory :=
  restarts [] (Memory.opened config helpers j)

/-- A memory answers a request. Only a buffer can be told what to hold. -/
def step (supply : Supply) (c : Course Memory) (r : Request) : Course Memory :=
  let next := c.memory.answer supply r c.journal
  let after := (next.1.2, next.2)
  match r, c.memory with
  | .add m, _ => c.enters [m] after
  | .addAll ms, memory => c.enters (memory.offered supply ms c.journal) after
  | .clear, _ => restarts [] after
  | .load ms, .buffer _ => restarts ms after
  | _, _ => c.stays after

def run (supply : Supply) (requests : List Request) (c : Course Memory) : Course Memory :=
  requests.foldl (step supply) c

theorem memory_step (supply : Supply) (c : Course Memory) (r : Request) :
    (step supply c r).memory = (c.memory.answer supply r c.journal).1.2 := by
  unfold step
  dsimp only
  split <;> rfl

theorem journal_step (supply : Supply) (c : Course Memory) (r : Request) :
    (step supply c r).journal = (c.memory.answer supply r c.journal).2 := by
  unfold step
  dsimp only
  split <;> rfl

/-- What the memory of a course replies to a request. -/
def reply (supply : Supply) (c : Course Memory) (r : Request) : Reply :=
  (c.memory.answer supply r c.journal).1.1

/-- The replies to requests that are put one after another. -/
def replies (supply : Supply) : List Request → Course Memory → List Reply
  | [], _ => []
  | r :: requests, c => c.reply supply r :: replies supply requests (step supply c r)

/-- The additions since the memory last forgot, after one more request. -/
def recorded (supply : Supply) (c : Course Memory) (r : Request) (past : List Addition) :
    List Addition :=
  match r, c.memory with
  | .add m, memory => past ++ [⟨m, memory, c.journal⟩]
  | .addAll ms, memory => past ++ memory.additions supply ms c.journal
  | .clear, _ => []
  | .load _, .buffer _ => []
  | _, _ => past

/-- A course together with its additions answers a request. -/
def record (supply : Supply) (s : Course Memory × List Addition) (r : Request) :
    Course Memory × List Addition :=
  (step supply s.1 r, recorded supply s.1 r s.2)

/-- The additions that requests bring about, since the memory last forgot. -/
def additions (supply : Supply) (requests : List Request) (c : Course Memory) :
    List Addition :=
  (requests.foldl (record supply) (c, [])).2

/-- Recording does not disturb the course. -/
theorem fst_foldl_record (supply : Supply) (requests : List Request)
    (s : Course Memory × List Addition) :
    (requests.foldl (record supply) s).1 = run supply requests s.1 := by
  induction requests generalizing s with
  | nil => rfl
  | cons r requests ih => exact ih (record supply s r)

/-- **Adding several messages is adding them one by one**, as far as they are put to
the memory: the course is the same, and so are the additions. -/
theorem record_addAll (supply : Supply) (ms : List Message)
    (s : Course Memory × List Addition) :
    record supply s (.addAll ms) =
      (s.1.memory.offered supply ms s.1.journal).foldl
        (fun s m => record supply s (.add m)) s := by
  induction ms generalizing s with
  | nil =>
      simp [record, recorded, step, Memory.answer, Memory.addAll, Memory.offered,
        Memory.additions, enters]
  | cons m ms ih =>
      obtain ⟨c, past⟩ := s
      have hone : record supply (c, past) (.add m) =
          (c.enters [m] ((c.memory.add supply m c.journal).1.2,
              (c.memory.add supply m c.journal).2),
            past ++ [⟨m, c.memory, c.journal⟩]) := rfl
      cases hadd : (c.memory.add supply m c.journal).1.1 with
      | error e =>
          simp [record, recorded, step, Memory.answer, Memory.addAll, Memory.offered,
            Memory.additions, hadd]
      | ok done =>
          have hrest := ih (record supply (c, past) (.add m))
          rw [hone] at hrest
          simp only [Memory.offered, hadd, List.foldl_cons, hone]
          refine Eq.trans ?_ hrest
          simp [record, recorded, step, Memory.answer, Memory.addAll, Memory.offered,
            Memory.additions, hadd, enters]

/-- The course of several additions at once is that of the single ones. -/
theorem step_addAll (supply : Supply) (ms : List Message) (c : Course Memory) :
    step supply c (.addAll ms) =
      run supply ((c.memory.offered supply ms c.journal).map .add) c := by
  have h := congrArg Prod.fst (record_addAll supply ms (c, []))
  rw [← List.foldl_map, fst_foldl_record] at h
  exact h

/-! ## Additions and the history -/

theorem map_message_additions (supply : Supply) (ms : List Message) (memory : Memory)
    (j : Journal) :
    (memory.additions supply ms j).map Addition.message = memory.offered supply ms j := by
  induction ms generalizing memory j with
  | nil => rfl
  | cons m ms ih =>
      unfold Memory.additions Memory.offered
      dsimp only
      split
      · rfl
      · rw [List.map_cons, ih]

theorem map_message_recorded (supply : Supply) {c : Course Memory} {past : List Addition}
    (h : past.map Addition.message = c.history) {r : Request} (hload : ∀ ms, r ≠ .load ms) :
    (recorded supply c r past).map Addition.message = (step supply c r).history := by
  cases r with
  | add m =>
      show (past ++ [Addition.mk m c.memory c.journal]).map Addition.message = c.history ++ [m]
      rw [List.map_append, h]
      rfl
  | addAll ms =>
      show (past ++ c.memory.additions supply ms c.journal).map Addition.message =
        c.history ++ c.memory.offered supply ms c.journal
      rw [List.map_append, h, map_message_additions]
  | clear => rfl
  | load ms => exact absurd rfl (hload ms)
  | context | occupancy | resize | windowSize | messages | limits | summaries | setTopK | topK
  | archived => exact h

/-- Where nothing is loaded, the messages since a memory last forgot are those that were
added since. -/
theorem history_eq_additions (supply : Supply) {requests : List Request}
    (hload : ∀ ms, .load ms ∉ requests) {c : Course Memory} (hc : c.history = []) :
    (additions supply requests c).map Addition.message = (run supply requests c).history := by
  rw [← fst_foldl_record supply requests (c, [])]
  refine List.foldlRecOn requests _ (motive := fun s : Course Memory × List Addition =>
    s.2.map Addition.message = s.1.history) hc.symm ?_
  intro s h r hr
  refine map_message_recorded supply h ?_
  rintro ms rfl
  exact hload ms hr

/-! ## Invariants of courses -/

/-- The journal of a course continues the one at its origin. -/
def Sound (c : Course σ) : Prop := c.origin.Begins c.journal

theorem sound_step (supply : Supply) {c : Course Memory} (hs : c.Sound) (r : Request) :
    (step supply c r).Sound := by
  have hnext := Memory.begins_answer supply r c.memory c.journal
  unfold step
  dsimp only
  -- Forgetting and loading set the origin anew; all else leaves it where it is.
  split
  · exact hs.trans hnext
  · exact hs.trans hnext
  · exact Journal.Begins.refl _
  · exact Journal.Begins.refl _
  · exact hs.trans hnext

section Invariant

variable {supply : Supply} {f : σ → Memory}

/-- A course of memories is a sound course of one kind, of which `P` holds together with
its additions. -/
def Keeps (f : σ → Memory) (P : Course σ → List Addition → Prop)
    (s : Course Memory × List Addition) : Prop :=
  ∃ d : Course σ, s.1 = d.lift f ∧ d.Sound ∧ P d s.2

/-- **The induction over courses.** What every single request of an allowed kind preserves, of
a course and of its additions, holds of every course whose requests are allowed. Requests that
add several messages need no case of their own. -/
theorem exists_allowed_run {A : Request → Prop} {P : Course σ → List Addition → Prop}
    (hadd : ∀ m, A (.add m))
    (hstep : ∀ (c : Course σ) (past : List Addition) (r : Request), A r →
      (∀ ms, r ≠ .addAll ms) → c.Sound → P c past →
      ∃ d : Course σ, step supply (c.lift f) r = d.lift f ∧
        P d (recorded supply (c.lift f) r past))
    {c : Course σ} (hs : c.Sound) (hc : P c []) {requests : List Request}
    (hallowed : ∀ r ∈ requests, A r) :
    ∃ d : Course σ, run supply requests (c.lift f) = d.lift f ∧ d.Sound ∧
      P d (additions supply requests (c.lift f)) := by
  -- One request that adds no list of messages.
  have hone : ∀ s, Keeps f P s → ∀ r, A r → (∀ ms, r ≠ .addAll ms) →
      Keeps f P (record supply s r) := by
    rintro ⟨_, past⟩ ⟨c, rfl, hs, hc⟩ r hr hsingle
    obtain ⟨d, hd, hP⟩ := hstep c past r hr hsingle hs hc
    have hsound : (d.lift f).Sound := hd ▸ sound_step supply (c := c.lift f) hs r
    exact ⟨d, hd, hsound, hP⟩
  have hall : Keeps f P (requests.foldl (record supply) (c.lift f, [])) := by
    refine List.foldlRecOn requests _ ⟨c, rfl, hs, hc⟩ ?_
    intro s h r hr
    by_cases hmany : ∃ ms, r = .addAll ms
    · -- A list of messages is added one by one, each by the step above.
      obtain ⟨ms, rfl⟩ := hmany
      rw [record_addAll]
      exact List.foldlRecOn _ _ h fun s h m _ => hone s h (.add m) (hadd m) (by simp)
    · exact hone s h r (hallowed r hr) fun ms heq => hmany ⟨ms, heq⟩
  obtain ⟨d, hd, hsound, hP⟩ := hall
  rw [fst_foldl_record] at hd
  exact ⟨d, hd, hsound, hP⟩

/-- The induction over courses, where all requests are allowed. -/
theorem exists_recorded_run {P : Course σ → List Addition → Prop}
    (hstep : ∀ (c : Course σ) (past : List Addition) (r : Request),
      (∀ ms, r ≠ .addAll ms) → c.Sound → P c past →
      ∃ d : Course σ, step supply (c.lift f) r = d.lift f ∧
        P d (recorded supply (c.lift f) r past))
    {c : Course σ} (hs : c.Sound) (hc : P c []) (requests : List Request) :
    ∃ d : Course σ, run supply requests (c.lift f) = d.lift f ∧ d.Sound ∧
      P d (additions supply requests (c.lift f)) :=
  exists_allowed_run (A := fun _ => True) (fun _ => trivial) (fun c past r _ => hstep c past r)
    hs hc fun _ _ => trivial

/-- The induction over courses, for what is not about the additions. -/
theorem exists_run {P : Course σ → Prop}
    (hstep : ∀ (c : Course σ) (r : Request), (∀ ms, r ≠ .addAll ms) → c.Sound → P c →
      ∃ d : Course σ, step supply (c.lift f) r = d.lift f ∧ P d)
    {c : Course σ} (hs : c.Sound) (hc : P c) (requests : List Request) :
    ∃ d : Course σ, run supply requests (c.lift f) = d.lift f ∧ d.Sound ∧ P d :=
  exists_recorded_run (P := fun c _ => P c) (fun c _ r => hstep c r) hs hc requests

/-- A sequential memory changes when a message comes and when it forgets. -/
theorem sequential_run {P : Course Memory.Sequential → Prop}
    (add : ∀ c m, c.Sound → P c → P (c.enters [m] (c.memory.add m c.journal)))
    (clear : ∀ c, P c → P (restarts [] (c.memory.clear c.journal)))
    {c : Course Memory.Sequential} (hs : c.Sound) (hc : P c) (requests : List Request) :
    ∃ d : Course Memory.Sequential,
      run supply requests (c.lift .sequential) = d.lift .sequential ∧ d.Sound ∧ P d := by
  refine exists_run ?_ hs hc requests
  intro c r hr hs hc
  cases r with
  | add m => exact ⟨_, rfl, add c m hs hc⟩
  | addAll ms => exact absurd rfl (hr ms)
  | clear => exact ⟨_, rfl, clear c hc⟩
  | _ => exact ⟨c, rfl, hc⟩

/-- A sliding window changes when a message comes, when it forgets, and when it is
resized. -/
theorem slidingWindow_run {P : Course Memory.SlidingWindow → Prop}
    (add : ∀ c m, c.Sound → P c → P (c.enters [m] (c.memory.add m c.journal)))
    (clear : ∀ c, P c → P (restarts [] (c.memory.clear c.journal)))
    (resize : ∀ c size, P c → P (c.stays (c.memory.resize size c.journal)))
    {c : Course Memory.SlidingWindow} (hs : c.Sound) (hc : P c) (requests : List Request) :
    ∃ d : Course Memory.SlidingWindow,
      run supply requests (c.lift .slidingWindow) = d.lift .slidingWindow ∧
        d.Sound ∧ P d := by
  refine exists_run ?_ hs hc requests
  intro c r hr hs hc
  cases r with
  | add m => exact ⟨_, rfl, add c m hs hc⟩
  | addAll ms => exact absurd rfl (hr ms)
  | clear => exact ⟨_, rfl, clear c hc⟩
  | resize size => exact ⟨_, rfl, resize c size hc⟩
  | _ => exact ⟨c, rfl, hc⟩

/-- A buffer changes when a message comes, when it is told what to hold, and when it
forgets. -/
theorem buffer_run {P : Course Memory.Buffer → Prop}
    (add : ∀ c m, c.Sound → P c → P (c.enters [m] (c.memory.add supply m c.journal)))
    (load : ∀ c ms, P c → P (restarts ms (c.memory.load ms c.journal)))
    (clear : ∀ c, P c → P (restarts [] (c.memory.clear c.journal)))
    {c : Course Memory.Buffer} (hs : c.Sound) (hc : P c) (requests : List Request) :
    ∃ d : Course Memory.Buffer,
      run supply requests (c.lift .buffer) = d.lift .buffer ∧ d.Sound ∧ P d := by
  refine exists_run ?_ hs hc requests
  intro c r hr hs hc
  cases r with
  | add m => exact ⟨_, rfl, add c m hs hc⟩
  | addAll ms => exact absurd rfl (hr ms)
  | load ms => exact ⟨_, rfl, load c ms hc⟩
  | clear => exact ⟨_, rfl, clear c hc⟩
  | _ => exact ⟨c, rfl, hc⟩

/-- A buffer that is never told what to hold changes when a message comes and when it
forgets. -/
theorem unloaded_buffer_run {P : Course Memory.Buffer → Prop}
    (add : ∀ c m, c.Sound → P c → P (c.enters [m] (c.memory.add supply m c.journal)))
    (clear : ∀ c, P c → P (restarts [] (c.memory.clear c.journal)))
    {c : Course Memory.Buffer} (hs : c.Sound) (hc : P c) {requests : List Request}
    (hload : ∀ ms, .load ms ∉ requests) :
    ∃ d : Course Memory.Buffer,
      run supply requests (c.lift .buffer) = d.lift .buffer ∧ d.Sound ∧ P d := by
  refine exists_allowed_run (A := fun r => ∀ ms, r ≠ .load ms) (P := fun c _ => P c)
    (by simp) ?_ hs hc ?_
  · intro c _ r hr hsingle hs hc
    cases r with
    | add m => exact ⟨_, rfl, add c m hs hc⟩
    | addAll ms => exact absurd rfl (hsingle ms)
    | load ms => exact absurd rfl (hr ms)
    | clear => exact ⟨_, rfl, clear c hc⟩
    | _ => exact ⟨c, rfl, hc⟩
  · rintro r hr ms rfl
    exact hload ms hr

/-- A summarizing memory changes when a message comes and when it forgets. Showing an
empty one reads the clock. -/
theorem summarization_run {P : Course Memory.Summarization → List Addition → Prop}
    (add : ∀ c past m, c.Sound → P c past →
      P (c.enters [m] ((c.memory.add m c.journal).1.2, (c.memory.add m c.journal).2))
        (past ++ [⟨m, .summarization c.memory, c.journal⟩]))
    (clear : ∀ c past, P c past → P (restarts [] (c.memory.clear c.journal)) [])
    (look : ∀ c past, P c past → P (c.stays (c.memory, (c.journal.now supply).2)) past)
    {c : Course Memory.Summarization} (hs : c.Sound) (hc : P c []) (requests : List Request) :
    ∃ d : Course Memory.Summarization,
      run supply requests (c.lift .summarization) = d.lift .summarization ∧
        d.Sound ∧ P d (additions supply requests (c.lift .summarization)) := by
  refine exists_recorded_run ?_ hs hc requests
  intro c past r hr hs hc
  cases r with
  | add m => exact ⟨_, rfl, add c past m hs hc⟩
  | addAll ms => exact absurd rfl (hr ms)
  | clear => exact ⟨_, rfl, clear c past hc⟩
  | context query =>
      cases hrecent : c.memory.recent with
      | nil =>
          refine ⟨_, ?_, look c past hc⟩
          simp [step, Memory.answer, Memory.context, Memory.Summarization.context,
            Memory.Summarization.summaryTime, hrecent, lift, stays]
      | cons m recent =>
          refine ⟨c, ?_, hc⟩
          simp [step, Memory.answer, Memory.context, Memory.Summarization.context,
            Memory.Summarization.summaryTime, hrecent, lift, stays]
  | _ => exact ⟨c, rfl, hc⟩

/-- A retrieving memory changes when a message comes, when it forgets, and when the size of
its answers is set. A query changes the journal only. -/
theorem retrieval_run {P : Course Memory.Retrieval → List Addition → Prop}
    (add : ∀ c past m, c.Sound → P c past →
      P (c.enters [m] ((c.memory.add m c.journal).1.2, (c.memory.add m c.journal).2))
        (past ++ [⟨m, .retrieval c.memory, c.journal⟩]))
    (clear : ∀ c past, P c past → P (restarts [] (c.memory.clear c.journal)) [])
    (look : ∀ c past query, P c past →
      P (c.stays (c.memory, (c.memory.context query c.journal).2)) past)
    (resize : ∀ c past k, P c past → P (c.stays (c.memory.setTopK k, c.journal)) past)
    {c : Course Memory.Retrieval} (hs : c.Sound) (hc : P c []) (requests : List Request) :
    ∃ d : Course Memory.Retrieval,
      run supply requests (c.lift .retrieval) = d.lift .retrieval ∧ d.Sound ∧
        P d (additions supply requests (c.lift .retrieval)) := by
  refine exists_recorded_run ?_ hs hc requests
  intro c past r hr hs hc
  cases r with
  | add m => exact ⟨_, rfl, add c past m hs hc⟩
  | addAll ms => exact absurd rfl (hr ms)
  | clear => exact ⟨_, rfl, clear c past hc⟩
  | context query => exact ⟨_, rfl, look c past query hc⟩
  | setTopK k => exact ⟨_, rfl, resize c past k hc⟩
  | _ => exact ⟨c, rfl, hc⟩

/-- A hierarchical memory changes when a message comes and when it forgets. -/
theorem hierarchical_run {P : Course Memory.Hierarchical → Prop}
    (add : ∀ c m, c.Sound → P c → P (c.enters [m] (c.memory.add supply m c.journal)))
    (clear : ∀ c, P c → P (restarts [] (c.memory.clear c.journal)))
    {c : Course Memory.Hierarchical} (hs : c.Sound) (hc : P c) (requests : List Request) :
    ∃ d : Course Memory.Hierarchical,
      run supply requests (c.lift .hierarchical) = d.lift .hierarchical ∧
        d.Sound ∧ P d := by
  refine exists_run ?_ hs hc requests
  intro c r hr hs hc
  cases r with
  | add m => exact ⟨_, rfl, add c m hs hc⟩
  | addAll ms => exact absurd rfl (hr ms)
  | clear => exact ⟨_, rfl, clear c hc⟩
  | _ => exact ⟨c, rfl, hc⟩

end Invariant

/-! ## What a change adds to the calls and the reports -/

theorem sound_restarts (messages : List Message) (after : σ × Journal) :
    (restarts messages after).Sound := Journal.Begins.refl _

theorem calls_restarts (s : Summarizer) (messages : List Message) (after : σ × Journal) :
    (restarts messages after).calls s = [] := by
  simp [calls, restarts, ← s.length_calls]

theorem reports_restarts (messages : List Message) (after : σ × Journal) :
    (restarts messages after).reports = [] := by
  simp [reports, restarts]

theorem calls_enters {s : Summarizer} {c : Course σ} (hs : c.Sound) (after : σ × Journal)
    {made : List Call} (h : s.calls after.2 = s.calls c.journal ++ made)
    (messages : List Message) : (c.enters messages after).calls s = c.calls s ++ made := by
  have hle : c.origin.batches.length ≤ (s.calls c.journal).length := by
    rw [s.length_calls]
    exact hs.batches.length_le
  simp only [calls, enters]
  rw [h, List.drop_append_of_le_length hle]

theorem reports_enters {c : Course σ} (hs : c.Sound) (after : σ × Journal)
    {made : List Event} (h : after.2.events = c.journal.events ++ made)
    (messages : List Message) : (c.enters messages after).reports = c.reports ++ made := by
  simp only [reports, enters]
  rw [h, List.drop_append_of_le_length hs.events.length_le]

end Course

end Recall
