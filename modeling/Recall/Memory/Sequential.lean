import Recall.Collaborator
import Recall.Occupancy

/-!
# Sequential memory

A sequential memory keeps every message. Its context is all of them in the order in
which they came.
-/

namespace Recall.Memory

structure Sequential where
  messages : List Message

namespace Sequential

def opened (j : Journal) : Sequential × Journal := (⟨[]⟩, j.report .sequentialOpened)

def add (m : Message) (s : Sequential) (j : Journal) : Sequential × Journal :=
  (⟨s.messages ++ [m]⟩, j.report (.appended m.id))

def clear (_ : Sequential) (j : Journal) : Sequential × Journal :=
  (⟨[]⟩, j.report (.cleared .sequential))

def context (s : Sequential) : List Message := s.messages

def occupancy (s : Sequential) : Occupancy := .uncompressed s.messages

end Sequential

end Recall.Memory
