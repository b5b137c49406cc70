import Recall.Proofs.Course
import Mathlib.Data.List.DropRight
import Mathlib.Order.Basic

/-!
# A sliding window that is resized

A window that is never resized shows the end of the history, as far as its size. A window that
is resized shows less: each size that it had took its share of the messages that were there,
and a larger size after it brings none of them back. So what counts is every size since the
window last forgot, together with the number of messages that came after it was replaced
(`Sizes`). The sizes are read off the requests alone, and the window shows as many of the last
messages as every one of them left (`Sizes.room`).
-/

namespace Recall.Memory.SlidingWindow

/-! ## The sizes of a window -/

/-- The size that is put in force; zero stands for ten. -/
def sizeFor (size : Nat) : Nat := if size = 0 then 10 else size

theorem sizeFor_pos (size : Nat) : 0 < sizeFor size := by
  unfold sizeFor
  split <;> omega

/-- The sizes since a window last forgot: the one in force, and those that were replaced, each
with the number of messages that came after that. -/
structure Sizes where
  current : Nat
  replaced : List (Nat × Nat)

namespace Sizes

def come (s : Sizes) : Sizes :=
  { s with replaced := s.replaced.map fun (size, later) => (size, later + 1) }

def step (s : Sizes) : Request → Sizes
  | .add _ => s.come
  | .addAll messages => messages.foldl (fun s _ => s.come) s
  | .resize size => ⟨sizeFor size, (s.current, 0) :: s.replaced⟩
  | .clear => ⟨s.current, []⟩
  | _ => s

/-- The sizes of a window that was opened with a size and asked for other ones. -/
def after (size : Nat) (requests : List Request) : Sizes :=
  requests.foldl step ⟨sizeFor size, []⟩

/-- How many of `count` messages every size leaves: the size in force as many as it says, and
one that was replaced as many as it says and those that came later. -/
def room (s : Sizes) (count : Nat) : Nat :=
  s.replaced.foldr (fun (size, later) room => min (size + later) room) (min count s.current)

theorem le_room_iff {s : Sizes} {count n : Nat} :
    n ≤ s.room count ↔ n ≤ count ∧ n ≤ s.current ∧ ∀ p ∈ s.replaced, n ≤ p.1 + p.2 := by
  obtain ⟨current, replaced⟩ := s
  unfold room
  induction replaced with
  | nil =>
      simp only [List.foldr_nil, Nat.le_min, List.not_mem_nil, false_imp_iff, implies_true, and_true]
  | cons p replaced ih =>
      simp only [List.foldr_cons, Nat.le_min, List.forall_mem_cons, ih]
      constructor
      · rintro ⟨hp, hcount, hcurrent, hreplaced⟩
        exact ⟨hcount, hcurrent, hp, hreplaced⟩
      · rintro ⟨hcount, hcurrent, hp, hreplaced⟩
        exact ⟨hp, hcount, hcurrent, hreplaced⟩

theorem room_le (s : Sizes) (count : Nat) : s.room count ≤ count ∧ s.room count ≤ s.current := by
  obtain ⟨hcount, hcurrent, -⟩ := le_room_iff.mp (Nat.le_refl (s.room count))
  exact ⟨hcount, hcurrent⟩

/-- With a message more there is room for one more, but never beyond the size in force. -/
theorem room_come (s : Sizes) (count : Nat) :
    s.come.room (count + 1) = min (s.room count + 1) s.current := by
  refine eq_of_forall_le_iff fun n => ?_
  rw [Nat.le_min, ← Nat.sub_le_iff_le_add, le_room_iff, le_room_iff]
  simp only [come, List.forall_mem_map]
  constructor
  · rintro ⟨hcount, hcurrent, hreplaced⟩
    refine ⟨⟨by omega, by omega, ?_⟩, hcurrent⟩
    intro p hp
    have := hreplaced p hp
    omega
  · rintro ⟨⟨hcount, -, hreplaced⟩, hcurrent⟩
    refine ⟨by omega, hcurrent, ?_⟩
    intro p hp
    have := hreplaced p hp
    omega

/-- Another size leaves what was left before, as far as it goes. -/
theorem room_resize (s : Sizes) (size count : Nat) :
    (s.step (.resize size)).room count = min (s.room count) (sizeFor size) := by
  refine eq_of_forall_le_iff fun n => ?_
  rw [Nat.le_min, le_room_iff, le_room_iff]
  simp only [step, List.forall_mem_cons, Nat.add_zero]
  constructor
  · rintro ⟨hcount, hsize, hcurrent, hreplaced⟩
    exact ⟨⟨hcount, hcurrent, hreplaced⟩, hsize⟩
  · rintro ⟨⟨hcount, hcurrent, hreplaced⟩, hsize⟩
    exact ⟨hcount, hsize, hcurrent, hreplaced⟩

end Sizes

/-! ## One request -/

theorem rtake_rtake {α : Type} (xs : List α) (m n : Nat) :
    (xs.rtake m).rtake n = xs.rtake (min m n) := by
  simp only [List.rtake, List.drop_drop, List.length_drop]
  congr 1
  omega

/-- **The invariant of a window in use.** It holds as many of the last messages as every size
left. -/
structure Fits (c : Course SlidingWindow) (s : Sizes) : Prop where
  size_pos : 0 < c.memory.size
  size_eq : c.memory.size = s.current
  messages_eq : c.memory.messages = c.history.rtake (s.room c.history.length)

variable {c : Course SlidingWindow} {s : Sizes}

theorem Fits.add (h : Fits c s) (m : Message) :
    Fits (c.enters [m] (c.memory.add m c.journal)) s.come where
  size_pos := h.size_pos
  size_eq := h.size_eq
  messages_eq := by
    show (c.memory.messages ++ [m]).rtake c.memory.size =
      (c.history ++ [m]).rtake (s.come.room (c.history ++ [m]).length)
    rw [List.length_append, List.length_singleton, Sizes.room_come, ← rtake_rtake,
      List.rtake_concat_succ, ← h.messages_eq, h.size_eq]

theorem Fits.resize (h : Fits c s) (size : Nat) :
    Fits (c.stays (c.memory.resize size c.journal)) (s.step (.resize size)) where
  size_pos := sizeFor_pos size
  size_eq := rfl
  messages_eq := by
    show c.memory.messages.rtake (sizeFor size) =
      c.history.rtake ((s.step (.resize size)).room c.history.length)
    rw [Sizes.room_resize, ← rtake_rtake, h.messages_eq]

theorem Fits.clear (h : Fits c s) :
    Fits (Course.restarts [] (c.memory.clear c.journal)) (s.step .clear) where
  size_pos := h.size_pos
  size_eq := h.size_eq
  messages_eq := (List.rtake_nil _).symm

/-- Adding to a window never fails, so all messages are put to it. -/
theorem offered_eq (supply : Supply) (messages : List Message) (w : SlidingWindow)
    (j : Journal) : offered supply messages (.slidingWindow w) j = messages := by
  induction messages generalizing w j with
  | nil => rfl
  | cons m messages ih => exact congrArg (m :: ·) (ih _ _)

theorem Fits.addAll (supply : Supply) (messages : List Message) (h : Fits c s) :
    ∃ d : Course SlidingWindow,
      Course.run supply (messages.map .add) (c.lift .slidingWindow) = d.lift .slidingWindow ∧
        Fits d (messages.foldl (fun s _ => s.come) s) := by
  induction messages generalizing c s with
  | nil => exact ⟨c, rfl, h⟩
  | cons m messages ih => exact ih (h.add m)

/-- What one request makes of the window and of its sizes. -/
theorem Fits.step (supply : Supply) (h : Fits c s) (r : Request) :
    ∃ d : Course SlidingWindow,
      Course.step supply (c.lift .slidingWindow) r = d.lift .slidingWindow ∧
        Fits d (s.step r) := by
  cases r with
  | add m => exact ⟨_, rfl, h.add m⟩
  | addAll messages =>
      rw [Course.step_addAll]
      show ∃ d : Course SlidingWindow, Course.run supply
        ((offered supply messages (.slidingWindow c.memory) c.journal).map .add) _ = _ ∧ _
      rw [offered_eq]
      exact h.addAll supply messages
  | resize size => exact ⟨_, rfl, h.resize size⟩
  | clear => exact ⟨_, rfl, h.clear⟩
  | context | occupancy | windowSize | load | messages | limits | summaries | setTopK | topK
  | archived => exact ⟨c, rfl, h⟩

/-! ## Courses -/

/-- Every course of a window satisfies the invariant, with the sizes that were asked for. -/
theorem exists_fits (supply : Supply) (limits : Config.SlidingWindow) (helpers : Collaborators)
    (j : Journal) (requests : List Request) :
    ∃ c : Course SlidingWindow,
      Course.run supply requests (.opened (.slidingWindow limits) helpers j) =
        c.lift .slidingWindow ∧
      Fits c (Sizes.after limits.windowSize requests) := by
  induction requests using List.reverseRecOn with
  | nil =>
      refine ⟨Course.restarts [] (SlidingWindow.opened limits j), rfl,
        sizeFor_pos limits.windowSize, rfl, ?_⟩
      exact (List.rtake_nil _).symm
  | append_singleton requests r ih =>
      obtain ⟨c, hrun, h⟩ := ih
      obtain ⟨d, hstep, hd⟩ := h.step supply r
      refine ⟨d, ?_, ?_⟩
      · rw [Course.run, List.foldl_append]
        exact (congrArg (Course.step supply · r) hrun).trans hstep
      · rw [Sizes.after, List.foldl_append]
        exact hd

theorem Fits.context_eq {c : Course SlidingWindow} {s : Sizes} (h : Fits c s) :
    Reply.messages c.memory.context = .messages (c.history.rtake (s.room c.history.length)) :=
  congrArg Reply.messages h.messages_eq

/-- **A window shows what every size left.** In every course of a window, as many of the last
messages since it last forgot are shown as there are, and as each size since then left: the
size in force as many as it says, one that was replaced as many as it says and those that came
after that. They are never more than the size in force. A size that is not smaller than the
one in force changes nothing in what is shown, so no message comes back and none is lost. -/
theorem shows_what_sizes_left (supply : Supply) (limits : Config.SlidingWindow)
    (helpers : Collaborators) (j : Journal) (requests : List Request) (query : String) :
    let c := Course.run supply requests (.opened (.slidingWindow limits) helpers j)
    let sizes := Sizes.after limits.windowSize requests
    let shown := c.history.rtake (sizes.room c.history.length)
    (c.memory.answer supply (.context query) c.journal).1.1 = .messages shown ∧
      (c.memory.answer supply .windowSize c.journal).1.1 = .size sizes.current ∧
      shown.length = sizes.room c.history.length ∧
      shown.length ≤ sizes.current ∧
      ∀ size, sizes.current ≤ sizeFor size →
        let grown := Course.step supply c (.resize size)
        (grown.memory.answer supply (.context query) grown.journal).1.1 = .messages shown := by
  obtain ⟨c, hrun, h⟩ := exists_fits supply limits helpers j requests
  rw [hrun]
  intro _ sizes shown
  have hroom := sizes.room_le c.history.length
  have hlength : shown.length = sizes.room c.history.length := by
    show (c.history.rtake (sizes.room c.history.length)).length = sizes.room c.history.length
    rw [List.rtake, List.length_drop]
    omega
  refine ⟨h.context_eq, congrArg Reply.size h.size_eq, hlength, hlength ▸ hroom.2, ?_⟩
  intro size hgrows
  refine (h.resize size).context_eq.trans ?_
  show Reply.messages (c.history.rtake ((sizes.step (.resize size)).room c.history.length)) =
    .messages (c.history.rtake (sizes.room c.history.length))
  rw [Sizes.room_resize, Nat.min_eq_left (Nat.le_trans hroom.2 hgrows)]

/-- Two of four messages are left when the size is two, a fifth comes to them, and neither five
nor ten brings back the others. -/
theorem shows_three_after_growing :
    let supply : Supply := ⟨fun _ => .epoch, fun _ => ""⟩
    let said (id : String) : Message := .make id .epoch .user ""
    let requests : List Request := [.addAll [said "a", said "b", said "c", said "d"],
      .resize 2, .resize 5, .add (said "e")]
    let c := Course.run supply requests (.opened (.slidingWindow ⟨3⟩) .builtIn .empty)
    let grown := Course.step supply c (.resize 0)
    (grown.memory.answer supply (.context "") grown.journal).1.1 =
      .messages [said "c", said "d", said "e"] := by
  intro supply said requests c grown
  obtain ⟨-, -, -, -, hgrows⟩ :=
    shows_what_sizes_left supply ⟨3⟩ .builtIn .empty requests ""
  exact hgrows 0 (by decide)

end Recall.Memory.SlidingWindow
