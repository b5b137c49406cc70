import Recall.Proofs.Buffer.Retention
import Recall.Proofs.Digest

/-!
# A running digest

A buffer that has summarized holds its summary as a message, and the next batch begins with
it. So a digest is digested again and again, and nothing in a digest is ever taken back: what
keeps it short is that a part shows 200 characters at most (`Digest.length_ofMessages_le`), and
that **a batch never has many messages**, whoever summarizes them.

The invariant is that the buffer holds at most one message more than its limit allows, the
summary (`Bounding`). Then the message limit takes away two messages at most, and the token
limit all but the newest. Contents that are loaded can be longer, and so can the next batch.
-/

namespace Recall.Memory.Buffer

/-! ## One compaction -/

/-- From `j` to `k` all batches that were asked about have between 1 and `size` messages. -/
def AskedOf (size : Nat) (j k : Journal) : Prop :=
  ∃ asked : List (List Message), k.batches = j.batches ++ asked ∧
    ∀ batch ∈ asked, 1 ≤ batch.length ∧ batch.length ≤ size

variable {size : Nat} {j k l : Journal}

theorem askedOf_quiet (hbatches : k.batches = j.batches) : AskedOf size j k :=
  ⟨[], by rw [hbatches, List.append_nil], by simp⟩

theorem askedOf_one {batch : List Message} (hbatches : k.batches = j.batches ++ [batch])
    (hsome : 1 ≤ batch.length) (hle : batch.length ≤ size) : AskedOf size j k := by
  refine ⟨[batch], hbatches, ?_⟩
  intro b hb
  rw [List.mem_singleton.mp hb]
  exact ⟨hsome, hle⟩

theorem AskedOf.trans (h : AskedOf size j k) (h' : AskedOf size k l) : AskedOf size j l := by
  obtain ⟨asked, hasked, hsizes⟩ := h
  obtain ⟨more, hmore, hsizes'⟩ := h'
  refine ⟨asked ++ more, by rw [hmore, hasked, List.append_assoc], ?_⟩
  intro batch hbatch
  rcases List.mem_append.mp hbatch with hbatch | hbatch
  · exact hsizes batch hbatch
  · exact hsizes' batch hbatch

/-- A batch has as many messages as are taken away, and at most one comes in their place. -/
theorem compact_sizes (supply : Supply) {count : Nat} (pressure : Pressure) {b : Buffer}
    (j : Journal) (hcount : count ≤ b.messages.length) (hsize : count ≤ size) :
    AskedOf size j (b.compact supply count pressure j).2 ∧
      (b.compact supply count pressure j).1.messages.length ≤
        b.messages.length - (count - 1) := by
  have hlen : (b.messages.take count).length = count := List.length_take_of_le hcount
  rcases compact_cases supply count pressure b j with
    ⟨hzero, h⟩ | ⟨hne, -, h⟩ | ⟨hne, -, text, -, h⟩ | ⟨hne, -, e, -, h⟩ <;> rw [h]
  · subst hzero
    exact ⟨askedOf_quiet rfl, Nat.le_refl _⟩
  · refine ⟨askedOf_quiet rfl, ?_⟩
    rw [List.length_drop]
    omega
  · refine ⟨askedOf_one rfl (by omega) (by omega), ?_⟩
    rw [List.length_cons, List.length_drop]
    omega
  · refine ⟨askedOf_one rfl (by omega) (by omega), ?_⟩
    rw [List.length_drop]
    omega

/-! ## The two limits -/

/-- The message limit takes two messages away at most, and leaves one too many if a summary
comes in their place. -/
theorem messageLimit_sizes (supply : Supply) {b : Buffer} (j : Journal)
    (hlimit : 0 < b.limits.maxMessages)
    (hlen : b.messages.length ≤ b.limits.maxMessages + 2) :
    AskedOf (max 2 b.limits.maxMessages) j
        (b.compact supply (messageSurplus b.limits b.messages) .messageLimit j).2 ∧
      (b.compact supply (messageSurplus b.limits b.messages) .messageLimit j).1.messages.length ≤
        b.limits.maxMessages + 1 := by
  have hsurplus : messageSurplus b.limits b.messages =
      b.messages.length - b.limits.maxMessages := if_neg (Nat.ne_of_gt hlimit)
  obtain ⟨hasked, hleft⟩ := compact_sizes supply .messageLimit j
    (by omega : messageSurplus b.limits b.messages ≤ b.messages.length)
    (by omega : messageSurplus b.limits b.messages ≤ max 2 b.limits.maxMessages)
  exact ⟨hasked, by omega⟩

theorem tokenSurplus_le (limits : Config.Buffer) (messages : List Message) :
    tokenSurplus limits messages ≤ messages.length - 1 := by
  have hle := olderThanCrossing_le limits.maxTokens 0 messages.reverse
  rw [List.length_reverse] at hle
  unfold tokenSurplus
  split <;> omega

/-- The token limit takes all messages but the newest away at most. -/
theorem tokenLimit_sizes (supply : Supply) (limits : Config.Buffer) {b : Buffer} (j : Journal)
    (hlen : b.messages.length ≤ limits.maxMessages + 1) :
    AskedOf (max 2 limits.maxMessages) j
        (b.compact supply (tokenSurplus limits b.messages) .tokenLimit j).2 ∧
      (b.compact supply (tokenSurplus limits b.messages) .tokenLimit j).1.messages.length ≤
        limits.maxMessages + 1 := by
  have hsurplus := tokenSurplus_le limits b.messages
  obtain ⟨hasked, hleft⟩ := compact_sizes supply .tokenLimit j
    (by omega : tokenSurplus limits b.messages ≤ b.messages.length)
    (by omega : tokenSurplus limits b.messages ≤ max 2 limits.maxMessages)
  exact ⟨hasked, by omega⟩

/-! ## Courses -/

/-- A message that comes is one too many, and the summary is another one. -/
theorem add_sizes (supply : Supply) (m : Message) {b : Buffer} (j : Journal)
    (hlimit : 0 < b.limits.maxMessages)
    (hlen : b.messages.length ≤ b.limits.maxMessages + 1) :
    AskedOf (max 2 b.limits.maxMessages) j (b.add supply m j).2 ∧
      (b.add supply m j).1.messages.length ≤ b.limits.maxMessages + 1 := by
  have hgrown : (b.messages ++ [m]).length ≤ b.limits.maxMessages + 2 := by
    rw [List.length_append, List.length_singleton]
    omega
  obtain ⟨hasked, hleft⟩ :=
    messageLimit_sizes supply (b := { b with messages := b.messages ++ [m] }) j hlimit hgrown
  obtain ⟨hasked', hleft'⟩ := tokenLimit_sizes supply b.limits _ hleft
  exact ⟨hasked.trans hasked', hleft'⟩

/-- **The invariant of a buffer that no messages are loaded into.** It holds at most one
message more than its limit allows, and since `j` no batch had more than `max 2 maxMessages`
messages. -/
structure Bounding (limits : Config.Buffer) (s : Summarizer) (j : Journal)
    (c : Course Buffer) : Prop where
  retaining : Retaining limits s c
  asked : AskedOf (max 2 limits.maxMessages) j c.journal
  since : j.batches.length ≤ c.origin.batches.length
  length_le : c.memory.messages.length ≤ limits.maxMessages + 1

theorem Bounding.add {limits : Config.Buffer} {s : Summarizer} {c : Course Buffer}
    (h : Bounding limits s j c) (hlimit : 0 < limits.maxMessages) (hs : c.Sound)
    (supply : Supply) (m : Message) :
    Bounding limits s j (c.enters [m] (c.memory.add supply m c.journal)) := by
  have hretaining := (h.retaining.exact hs supply m).1
  have hlimits := h.retaining.limits_eq
  subst hlimits
  obtain ⟨hasked, hleft⟩ := add_sizes supply m c.journal hlimit h.length_le
  exact ⟨hretaining, h.asked.trans hasked, h.since, hleft⟩

theorem Bounding.clear {limits : Config.Buffer} {s : Summarizer} {c : Course Buffer}
    (h : Bounding limits s j c) :
    Bounding limits s j (.restarts [] (c.memory.clear c.journal)) where
  retaining := retaining_restarts { c.memory with messages := [] } _
    h.retaining.limits_eq h.retaining.summarizer_eq
  asked := h.asked.trans (askedOf_quiet rfl)
  since := by
    obtain ⟨asked, hasked, -⟩ := h.asked
    show j.batches.length ≤ c.journal.batches.length
    rw [hasked, List.length_append]
    exact Nat.le_add_right _ _
  length_le := Nat.zero_le _

/-- Every course of a buffer with a message limit satisfies the invariant, if no messages are
loaded. -/
theorem exists_bounding (supply : Supply) (limits : Config.Buffer)
    (hlimit : 0 < limits.maxMessages) (helpers : Collaborators) (j : Journal)
    (requests : List Request) (hload : ∀ ms, .load ms ∉ requests) :
    ∃ c : Course Buffer,
      Course.run supply requests (.opened (.buffer limits) helpers j) = c.lift .buffer ∧
        c.Sound ∧ Bounding limits helpers.summarizer j c := by
  refine Course.unloaded_buffer_run (fun c m hs h => h.add hlimit hs supply m)
    (fun c h => h.clear) (c := Course.restarts [] (Buffer.opened limits helpers.summarizer j))
    (Course.sound_restarts _ _) ?_ hload
  exact ⟨retaining_restarts ⟨limits, helpers.summarizer, []⟩ _ rfl rfl, askedOf_quiet rfl,
    Nat.le_refl _, Nat.zero_le _⟩

/-! ## Digests -/

/-- A digest never fails, and is read off the batch alone. -/
theorem calls_digest (j : Journal) : Summarizer.digest.calls j =
    j.batches.map fun batch => ⟨batch, .ok (Digest.ofMessages batch)⟩ := by
  refine List.ext_getElem (by simp [Summarizer.calls]) ?_
  intro k _ _
  simp [Summarizer.calls, Summarizer.digest]

/-- What digests a summary in use is a batch that was asked about since `j`. -/
theorem Bounding.batch_of_summarizes {limits : Config.Buffer} {c : Course Buffer} {x : Message}
    (h : Bounding limits .digest j c) (hx : x.Summarizes (c.calls .digest)) :
    ∃ batch ∈ c.journal.batches.drop j.batches.length, ∃ id now,
      x = .make id now .system (Digest.ofMessages batch) := by
  obtain ⟨call, hcall, id, now, text, hreply, hmade⟩ := hx
  rw [Course.calls, calls_digest, ← List.map_drop] at hcall
  obtain ⟨batch, hbatch, rfl⟩ := List.mem_map.mp hcall
  cases hreply
  exact ⟨batch, List.drop_subset_drop_left _ h.since hbatch, id, now, hmade⟩

/-- **A running digest stays short.** Messages of any length come to a buffer that digests
what its limits take away, it forgets and is shown, but none are loaded. Then every batch has
between 1 and `max 2 maxMessages` messages, and so its digest is bounded. At any time the buffer
holds the digest of one such batch, at most, in front of messages that came since it forgot:
the bound is the same however long the history is and however often a digest is digested. -/
theorem running_digest_bounded (supply : Supply) (maxMessages maxTokens : Nat)
    (hlimit : 0 < maxMessages) (helpers : Collaborators) (j : Journal)
    (requests : List Request) (hload : ∀ ms, .load ms ∉ requests) :
    let size := max 2 maxMessages
    let bound := 39 + (Decimal.naturalText size).length + 214 * size + 2 * (size - 1)
    let c := Course.run supply requests (.opened (.buffer ⟨maxMessages, maxTokens, true⟩)
      { helpers with summarizer := .digest } j)
    let batches := c.journal.batches.drop j.batches.length
    (∀ batch ∈ batches, 1 ≤ batch.length ∧ batch.length ≤ size ∧
      (Digest.ofMessages batch).length ≤ bound) ∧
    ∃ (b : Buffer) (front verbatim : List Message),
      c.memory = .buffer b ∧ b.messages = front ++ verbatim ∧ verbatim <:+ c.history ∧
      b.messages.length ≤ maxMessages + 1 ∧ front.length ≤ 1 ∧
      ∀ x ∈ front, x.content.length ≤ bound ∧ ∃ batch ∈ batches, ∃ id now,
        x = .make id now .system (Digest.ofMessages batch) := by
  obtain ⟨c, hrun, -, h⟩ := exists_bounding supply ⟨maxMessages, maxTokens, true⟩ hlimit
    { helpers with summarizer := .digest } j requests hload
  rw [hrun]
  intro size bound _ batches
  obtain ⟨asked, hasked, hsizes⟩ := h.asked
  have hbatches : batches = asked := by
    show c.journal.batches.drop _ = asked
    rw [hasked, List.drop_left]
  have hdigests : ∀ batch ∈ batches, 1 ≤ batch.length ∧ batch.length ≤ size ∧
      (Digest.ofMessages batch).length ≤ bound := by
    intro batch hbatch
    rw [hbatches] at hbatch
    obtain ⟨hsome, hle⟩ := hsizes batch hbatch
    exact ⟨hsome, hle, Digest.length_ofMessages_le hle⟩
  obtain ⟨verbatim, ⟨front, hsplit, hlen, hfront⟩, hsuffix, -⟩ := h.retaining.held
  refine ⟨hdigests, c.memory, front, verbatim, rfl, hsplit, hsuffix, h.length_le, hlen, ?_⟩
  intro x hx
  obtain ⟨batch, hbatch, id, now, rfl⟩ := h.batch_of_summarizes (hfront x hx)
  exact ⟨(hdigests batch hbatch).2.2, batch, hbatch, id, now, rfl⟩

/-- **A digest is digested again.** With room for one message, the second makes the first a
digest, and the third makes a batch of that digest and the second. -/
theorem digest_digested_again :
    let requests : List Request := [.addAll [.make "a" .epoch .user "one",
      .make "b" .epoch .user "two", .make "c" .epoch .user "three"]]
    let c := Course.run ⟨fun _ => .epoch, fun _ => "digest"⟩ requests
      (.opened (.buffer ⟨1, 0, true⟩) .builtIn .empty)
    c.journal.batches.map ids = [["a"], ["digest", "b"]] ∧
      ∀ batch ∈ c.journal.batches, 1 ≤ batch.length ∧ batch.length ≤ 2 ∧
        (Digest.ofMessages batch).length ≤ 470 := by
  intro requests c
  have hbounded := running_digest_bounded ⟨fun _ => .epoch, fun _ => "digest"⟩ 1 0 (by decide)
    .builtIn .empty requests (by simp [requests])
  exact ⟨by rfl, hbounded.1⟩

end Recall.Memory.Buffer
