import SigScan.Pattern

namespace SigScan

def firstPosition? (bytes : Array UInt8) (value : UInt8) (start : Nat) : (count : Nat) → Option Nat
  | 0 => none
  | count + 1 =>
    if bytes[start]? = some value then some start else firstPosition? bytes value (start + 1) count

theorem firstPosition?_le {bytes : Array UInt8} {value : UInt8} {start count position : Nat}
    (found : firstPosition? bytes value start count = some position) :
    start ≤ position ∧ position < start + count := by
  induction count generalizing start with
  | zero => simp [firstPosition?] at found
  | succ count ih =>
    rw [firstPosition?] at found
    split at found
    · cases found
      omega
    · have := ih found
      omega

structure Cursor where
  bytes : Array UInt8
  pattern : Pattern
  next : Nat
deriving DecidableEq, Repr

namespace Cursor

def start (bytes : Array UInt8) (pattern : Pattern) : Cursor := ⟨bytes, pattern, 0⟩

def last? (c : Cursor) : Option Nat :=
  if c.pattern.length ≤ c.bytes.size then some (c.bytes.size - c.pattern.length) else none

/-- The lowest offset from `next` to `last` that puts the anchor on its byte. A pattern without
    an exact byte has no anchor, and every offset is a candidate. -/
def candidate? (c : Cursor) (last : Nat) : Option Nat :=
  match c.pattern.anchor? with
  | some (index, value) =>
    (firstPosition? c.bytes value (c.next + index) (last + 1 - c.next)).map (· - index)
  | none => some c.next

theorem candidate?_le {c : Cursor} {last offset : Nat} (before : c.next ≤ last)
    (found : c.candidate? last = some offset) : c.next ≤ offset ∧ offset ≤ last := by
  rw [candidate?] at found
  split at found
  · obtain ⟨position, first, rfl⟩ := Option.map_eq_some_iff.mp found
    have := firstPosition?_le first
    omega
  · cases found
    omega

def seek (c : Cursor) (last : Nat) : Option Nat × Cursor :=
  if _ : c.next ≤ last then
    match _ : c.candidate? last with
    | none => (none, { c with next := last + 1 })
    | some offset =>
      if c.pattern.acceptsAt c.bytes offset then (some offset, { c with next := offset + 1 })
      else seek { c with next := offset + 1 } last
  else (none, c)
termination_by last + 1 - c.next
decreasing_by
  have := candidate?_le ‹_› ‹_›
  omega

def advance (c : Cursor) : Option Nat × Cursor :=
  match c.last? with
  | none => (none, c)
  | some last => c.seek last

def skip (c : Cursor) : (n : Nat) → Option Nat × Cursor
  | 0 => c.advance
  | n + 1 =>
    match c.advance with
    | (none, stopped) => (none, stopped)
    | (some _, moved) => moved.skip n

def left (c : Cursor) : Nat := c.bytes.size + 1 - c.next

theorem seek_bytes (c : Cursor) (last : Nat) : (c.seek last).2.bytes = c.bytes := by
  fun_induction seek c last with
  | case1 | case2 | case4 => rfl
  | case3 _ _ _ _ _ ih => exact ih

theorem seek_next {c : Cursor} {last offset : Nat} (found : (c.seek last).1 = some offset) :
    c.next ≤ offset ∧ offset ≤ last ∧ (c.seek last).2.next = offset + 1 := by
  fun_induction seek c last with
  | case1 | case4 => cases found
  | case2 c before offset hc _ =>
    cases found
    exact ⟨(candidate?_le before hc).1, (candidate?_le before hc).2, rfl⟩
  | case3 c before offset hc _ ih =>
    have := (candidate?_le before hc).1
    obtain ⟨above, below, moved⟩ := ih found
    exact ⟨by simp only at above; omega, below, moved⟩

theorem advance_left {c moved : Cursor} {offset : Nat} (found : c.advance = (some offset, moved)) :
    moved.left < c.left := by
  rw [advance] at found
  split at found
  · cases found
  · rename_i last fits
    have first : (c.seek last).1 = some offset := by rw [found]
    have := seek_next first
    have bytes := seek_bytes c last
    rw [found] at this bytes
    rw [last?] at fits
    split at fits
    · cases fits
      simp only at this bytes
      simp only [left, bytes]
      omega
    · cases fits

def gather (c : Cursor) (seen : Array Nat) : Array Nat :=
  match _ : c.advance with
  | (none, _) => seen
  | (some offset, moved) => moved.gather (seen.push offset)
termination_by c.left
decreasing_by exact advance_left ‹_›

def rest (c : Cursor) : List Nat := (c.gather #[]).toList

def tally (c : Cursor) (seen : Nat) : Nat :=
  match _ : c.advance with
  | (none, _) => seen
  | (some _, moved) => moved.tally (seen + 1)
termination_by c.left
decreasing_by exact advance_left ‹_›

def count (c : Cursor) : Nat := c.tally 0

inductive Query
  | next
  | skip (n : Nat)
  | rest
  | count
deriving DecidableEq, Repr

inductive Answer
  | offset (found : Option Nat)
  | offsets (found : List Nat)
  | number (n : Nat)
deriving DecidableEq, Repr

def ask (c : Cursor) : Query → Answer × Cursor
  | .next => let (found, moved) := c.advance; (.offset found, moved)
  | .skip n => let (found, moved) := c.skip n; (.offset found, moved)
  | .rest => (.offsets c.rest, c)
  | .count => (.number c.count, c)

def answers (c : Cursor) : List Query → List Answer
  | [] => []
  | query :: queries =>
    let (answer, moved) := c.ask query
    answer :: moved.answers queries

end Cursor

def Pattern.find? (pattern : Pattern) (bytes : Array UInt8) : Option Nat :=
  (Cursor.start bytes pattern).advance.1

end SigScan
