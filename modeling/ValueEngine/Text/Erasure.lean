import ValueEngine.Text.Cluster

/-! Erasing while typing. A backspace in a line takes away the cluster typed before it.
The size of a cluster in bytes is remembered in one byte, so of a cluster of 256
bytes or more only the remainder of its size is taken away. A line without a
backspace is left as it is. -/

namespace ValueEngine.Text

/-- A line being typed: the characters that stand, and the sizes of their clusters, both
last first. -/
structure Typing where
  standing : List Char
  sizes : List Nat
  deriving DecidableEq, Repr

/-- Take away characters that make up a number of bytes; impossible where the number cuts
a character in two. -/
def dropBytes? : Nat → List Char → Option (List Char)
  | 0, cs => some cs
  | _ + 1, [] => none
  | n + 1, c :: cs => if c.utf8Size ≤ n + 1 then dropBytes? (n + 1 - c.utf8Size) cs else none

/-- The remembered size of a cluster. -/
def sizeByte (cluster : List Char) : Nat := (String.ofList cluster).utf8ByteSize % 256

def Typing.enter? (t : Typing) (cluster : List Char) : Option Typing :=
  if cluster = ['\x08'] then
    match t.sizes with
    | [] => some t
    | size :: sizes => (dropBytes? size t.standing).map (⟨·, sizes⟩)
  else some ⟨cluster.reverse ++ t.standing, sizeByte cluster :: t.sizes⟩

/-- What stands of a line once its backspaces are carried out. -/
def erased? (line : List Char) : Option (List Char) :=
  ((clusters line).foldlM Typing.enter? ⟨[], []⟩).map (·.standing.reverse)

theorem foldlM_enter?_of_not_mem (t : Typing) (pieces : List (List Char))
    (h : ['\x08'] ∉ pieces) :
    (pieces.foldlM Typing.enter? t).map (·.standing.reverse) =
      some (t.standing.reverse ++ pieces.flatten) := by
  induction pieces generalizing t with
  | nil => simp
  | cons piece pieces ih =>
    simp only [List.mem_cons, not_or] at h
    have hp : piece ≠ ['\x08'] := fun e => h.1 e.symm
    rw [List.foldlM_cons, Typing.enter?, if_neg hp]
    simpa using ih ⟨piece.reverse ++ t.standing, sizeByte piece :: t.sizes⟩ h.2

/-- A line without a backspace stands as it was typed. -/
theorem erased?_of_not_mem (line : List Char) (h : '\x08' ∉ line) : erased? line = some line := by
  have hc : ['\x08'] ∉ clusters line := fun hm =>
    h (by rw [← flatten_clusters line]; exact List.mem_flatten.2 ⟨_, hm, by simp⟩)
  simpa [erased?] using foldlM_enter?_of_not_mem ⟨[], []⟩ (clusters line) hc

end ValueEngine.Text
